import RegisterBank.Document.Toml.Printer
import RegisterBank.Document.Toml.Quoted

/-!
# Characters between quotes in TOML

Each of the four forms of a text is read back, whatever stands behind its
closing quotes but another quote.  Over several lines one or two quotes may
stand in the text as they are, and the reader takes them together with the
character behind them, so the inductions here carry the quotes that were
written but not yet read.
-/

namespace RegisterBank.Document.Toml

/-! ## Escapes -/

/-- Characters that an escape writes for `c`: a backslash and what the reader
makes `c` of, which no blank and no line break starts. -/
def Escapes (written : List Char) (c : Char) : Prop :=
  ∃ d tail, written = '\\' :: d :: tail ∧ isBlank d = false ∧ d ≠ '\n' ∧ d ≠ '\r' ∧
    ∀ rest, escape (d :: (tail ++ rest)) = .ok (c, rest)

/-- Characters that write `c`, which is no double quote. -/
inductive Writes (overLines : Bool) (c : Char) : List Char → Prop
  | plain : isPlain c = true → c ≠ '\\' → Writes overLines c [c]
  | lineBreak : overLines = true → c = '\n' → Writes overLines c ['\n']
  | escaped {written : List Char} : Escapes written c → Writes overLines c written

theorem escapes_quote : Escapes ['\\', '"'] '"' :=
  ⟨'"', [], rfl, by decide, by decide, by decide, fun _ => rfl⟩

/-- What is written for a character other than a quote does not start with
one. -/
theorem Writes.head {overLines : Bool} {c : Char} {written : List Char}
    (writes : Writes overLines c written) (other : c ≠ '"') :
    ∃ d tail, written = d :: tail ∧ d ≠ '"' := by
  cases writes with
  | plain => exact ⟨c, [], rfl, other⟩
  | lineBreak => exact ⟨'\n', [], rfl, by decide⟩
  | escaped escapes =>
    obtain ⟨d, tail, rfl, -⟩ := escapes
    exact ⟨'\\', d :: tail, rfl, by decide⟩

/-- Control characters have four hexadecimal digits, which give back the
character. -/
theorem hexDigits_control : ∀ code < 128, code < 32 ∨ code = 127 →
    ((Text.padDigits 4 ((Text.hexDigits code).map Char.toUpper)).length = 4 ∧
    (Text.padDigits 4 ((Text.hexDigits code).map Char.toUpper)).mapM (Text.digitValue? 16) =
      some [0, 0, code / 16, code % 16]) := by
  decide

theorem toNat_of_isControl {c : Char} (control : isControl c = true) :
    c.toNat < 32 ∨ c.toNat = 127 := by
  unfold isControl at control
  simpa using control

/-- A control character is read back from its code point. -/
theorem escapes_codePoint {c : Char} (control : isControl c = true) :
    Escapes (codePoint c).toList c := by
  have range := toNat_of_isControl control
  have below : c.toNat < 128 := by omega
  rcases hexDigits_control c.toNat below range with ⟨four, values⟩
  refine ⟨'u', Text.padDigits 4 ((Text.hexDigits c.toNat).map Char.toUpper), ?_, by decide,
    by decide, by decide, ?_⟩
  · unfold codePoint
    simp only [String.toList_append, String.toList_ofList]
    rfl
  · intro rest
    have listed : charOf? c.toNat = some c := by
      unfold charOf?
      rw [if_pos (Or.inl (by omega)), Char.ofNat_toNat]
    show codeEscape 4 _ = _
    unfold codeEscape
    rw [List.take_left' four, List.drop_left' four, values]
    simp only [List.foldl_cons, List.foldl_nil, List.length_cons, List.length_nil]
    rw [if_neg (by decide)]
    have total : (((0 * 16 + 0) * 16 + 0) * 16 + c.toNat / 16) * 16 + c.toNat % 16 = c.toNat := by
      omega
    rw [total, listed]

/-- An escape by a letter gives back its character. -/
theorem escapes_letter (c d : Char) (solid : isBlank d = false ∧ d ≠ '\n' ∧ d ≠ '\r')
    (back : ∀ rest, escape (d :: rest) = .ok (c, rest)) : Escapes ['\\', d] c :=
  ⟨d, [], rfl, solid.1, solid.2.1, solid.2.2, back⟩

/-- Every character is written so that it can be read back. -/
theorem writes_escapeChar (overLines : Bool) (c : Char) :
    Writes overLines c (escapeChar overLines c).toList := by
  unfold escapeChar
  by_cases back : c = '\x08'
  · rw [if_pos back, back]
    exact .escaped (escapes_letter '\x08' 'b' (by decide) fun _ => rfl)
  rw [if_neg back]
  by_cases tab : c = '\t'
  · rw [if_pos tab, tab]
    exact .escaped (escapes_letter '\t' 't' (by decide) fun _ => rfl)
  rw [if_neg tab]
  by_cases line : c = '\n'
  · rw [if_pos line, line]
    cases overLines with
    | true => exact .lineBreak rfl rfl
    | false => exact .escaped (escapes_letter '\n' 'n' (by decide) fun _ => rfl)
  rw [if_neg line]
  by_cases feed : c = '\x0c'
  · rw [if_pos feed, feed]
    exact .escaped (escapes_letter '\x0c' 'f' (by decide) fun _ => rfl)
  rw [if_neg feed]
  by_cases carriage : c = '\r'
  · rw [if_pos carriage, carriage]
    exact .escaped (escapes_letter '\r' 'r' (by decide) fun _ => rfl)
  rw [if_neg carriage]
  by_cases slash : c = '\\'
  · rw [if_pos slash, slash]
    exact .escaped (escapes_letter '\\' '\\' (by decide) fun _ => rfl)
  rw [if_neg slash]
  by_cases control : isControl c = true
  · rw [if_pos control]
    exact .escaped (escapes_codePoint control)
  · rw [if_neg control]
    have single : c.toString.toList = [c] := by simp
    have plain : isPlain c = true := by
      unfold isControl at control
      unfold isPlain
      simp at control ⊢
      exact Or.inr control
    rw [single]
    exact .plain plain slash

/-! ## Texts on one line -/

variable {c : Char} {written : List Char}

/-- A written character takes one step. -/
theorem basicChars_written (writes : Writes false c written) (other : c ≠ '"') (fuel : Nat)
    (done rest : List Char) :
    basicChars (fuel + 1) done (written ++ rest) = basicChars fuel (c :: done) rest := by
  cases writes with
  | plain plain slash =>
    rw [List.singleton_append, basicChars, if_neg other, if_neg slash, if_pos plain]
  | lineBreak overLines => cases overLines
  | escaped escapes =>
    obtain ⟨d, tail, rfl, -, -, -, back⟩ := escapes
    rw [List.cons_append, List.cons_append, basicChars, if_neg (by decide), if_pos rfl, back]
    rfl

theorem basicChars_quote (fuel : Nat) (done rest : List Char) :
    basicChars (fuel + 1) done ('\\' :: '"' :: rest) = basicChars fuel ('"' :: done) rest := by
  rw [basicChars, if_neg (by decide), if_pos rfl]
  rfl

theorem toList_escapeChars_cons (overLines : Bool) (run : Nat) (other : c ≠ '"')
    (text : List Char) : (escapeChars overLines run (c :: text)).toList =
      (escapeChar overLines c).toList ++ (escapeChars overLines 0 text).toList := by
  rw [escapeChars, if_neg other, String.toList_append]

/-- Over several lines two quotes may stand unescaped, and a third may not. -/
theorem toList_escapeChars_quote (overLines : Bool) (run : Nat) (text : List Char) :
    (escapeChars overLines run ('"' :: text)).toList =
      if overLines ∧ run < 2 then '"' :: (escapeChars overLines (run + 1) text).toList
      else '\\' :: '"' :: (escapeChars overLines 0 text).toList := by
  rw [escapeChars, if_pos rfl]
  by_cases raw : overLines ∧ run < 2
  · rw [if_pos raw, if_pos raw, String.toList_append]
    rfl
  · rw [if_neg raw, if_neg raw, String.toList_append]
    rfl

/-- By induction on the text: each character is read back from what is written
for it. -/
theorem basicChars_escapeChars (text : List Char) (fuel : Nat) (done rest : List Char)
    (enough : text.length < fuel) :
    basicChars fuel done ((escapeChars false 0 text).toList ++ '"' :: rest) =
      .ok (String.ofList (done.reverse ++ text), rest) := by
  induction text generalizing fuel done with
  | nil =>
    obtain ⟨fuel, rfl⟩ : ∃ less, fuel = less + 1 := ⟨fuel - 1, by simp at enough; omega⟩
    rw [escapeChars, List.append_nil]
    rfl
  | cons c text ih =>
    rw [List.length_cons] at enough
    obtain ⟨fuel, rfl⟩ : ∃ less, fuel = less + 1 := ⟨fuel - 1, by omega⟩
    have read := ih fuel (c :: done) (by omega)
    rw [List.reverse_cons, List.append_assoc, List.singleton_append] at read
    by_cases quote : c = '"'
    · rw [quote] at read ⊢
      rw [toList_escapeChars_quote, if_neg (by simp), List.cons_append, List.cons_append,
        basicChars_quote, read]
    · rw [toList_escapeChars_cons false 0 quote, List.append_assoc,
        basicChars_written (writes_escapeChar false c) quote, read]

/-! ## Quotes inside texts over several lines -/

section Quotes

variable {quote d : Char}

/-- One quote before another character belongs to the text. -/
theorem innerQuotes?_one (other : d ≠ quote) (rest : List Char) :
    innerQuotes? quote (quote :: d :: rest) = some ([quote], d :: rest) := by
  cases rest with
  | nil => simp [innerQuotes?, other]
  | cons e rest => simp [innerQuotes?, other]

theorem innerQuotes?_two (other : d ≠ quote) (rest : List Char) :
    innerQuotes? quote (quote :: quote :: d :: rest) = some ([quote, quote], d :: rest) := by
  simp [innerQuotes?, other]

/-- Three quotes close the text. -/
theorem innerQuotes?_three (rest : List Char) :
    innerQuotes? quote (quote :: quote :: quote :: rest) = none := by
  simp [innerQuotes?]

/-- Up to two quotes in front of the closing three belong to the text. -/
theorem closingQuotes_run {count : Nat} (few : count ≤ 2) {rest : List Char}
    (apart : rest.head? ≠ some quote) :
    closingQuotes quote (List.replicate count quote ++ quote :: quote :: quote :: rest) =
      .ok (List.replicate count quote, rest) := by
  have run : List.replicate count quote ++ quote :: quote :: quote :: rest =
      List.replicate (count + 3) quote ++ rest := by
    rw [← List.replicate_append_replicate, List.append_assoc]
    rfl
  have quotes : (List.replicate (count + 3) quote ++ rest).takeWhile (· == quote) =
      List.replicate (count + 3) quote := by
    rw [List.takeWhile_append_of_pos (by simp)]
    cases rest with
    | nil => simp
    | cons e rest =>
      have other : (e == quote) = false := by
        rw [beq_eq_false_iff_ne]
        rintro rfl
        exact apart rfl
      simp [other]
  have inner : min (count + 3 - 3) 2 = count := by omega
  unfold closingQuotes
  rw [run, quotes, List.length_replicate, if_neg (by omega), inner]
  simp

end Quotes

/-! ## Texts between three double quotes -/

theorem lineBreak?_solid {d : Char} (line : d ≠ '\n') (carriage : d ≠ '\r') (rest : List Char) :
    lineBreak? (d :: rest) = none := by
  unfold lineBreak?
  split
  · rename_i same
    exact absurd (List.cons.inj same).1 line
  · rename_i same
    exact absurd (List.cons.inj same).1 carriage
  · rfl

/-- An escape is read back over several lines too. -/
theorem basicPiece?_escapes (escapes : Escapes written c) (fuel : Nat) (rest : List Char) :
    basicPiece? fuel (written ++ rest) = .ok (some ([c], rest)) := by
  obtain ⟨d, tail, rfl, solid, line, carriage, back⟩ := escapes
  have kept : skipBlanks (d :: (tail ++ rest)) = d :: (tail ++ rest) := by
    unfold skipBlanks
    exact List.dropWhile_cons_of_neg (by simp [solid])
  have noBreak : skipEscapedBreak? fuel ('\\' :: d :: (tail ++ rest)) = none := by
    show (lineBreak? (skipBlanks (d :: (tail ++ rest)))).map (skipSpace fuel) = none
    rw [kept, lineBreak?_solid line carriage]
    rfl
  rw [List.cons_append, List.cons_append]
  unfold basicPiece?
  simp only [noBreak, back]
  rfl

theorem basicPiece?_written (writes : Writes true c written) (other : c ≠ '"') (fuel : Nat)
    (rest : List Char) : basicPiece? fuel (written ++ rest) = .ok (some ([c], rest)) := by
  cases writes with
  | plain plain slash => simp [basicPiece?, plain, other, slash]
  | lineBreak _ same =>
    rw [same]
    rfl
  | escaped escapes => exact basicPiece?_escapes escapes fuel rest

theorem basicPiece?_quote (fuel : Nat) (rest : List Char) :
    basicPiece? fuel ('"' :: rest) = .ok none := rfl

/-- A character takes one step, with the quotes in front of it. -/
theorem basicBody_piece {count : Nat} (few : count ≤ 2) {d : Char} {tail : List Char} {fuel : Nat}
    {rest : List Char} (piece : basicPiece? fuel (d :: tail) = .ok (some ([c], rest)))
    (other : d ≠ '"') (done : List Char) :
    basicBody (fuel + 1) done (List.replicate count '"' ++ d :: tail) =
      basicBody fuel (c :: (List.replicate count '"' ++ done)) rest := by
  rcases show count = 0 ∨ count = 1 ∨ count = 2 by omega with rfl | rfl | rfl
  · show basicBody (fuel + 1) done (d :: tail) = _
    rw [basicBody, piece]
    rfl
  · show basicBody (fuel + 1) done ('"' :: d :: tail) = _
    rw [basicBody, basicPiece?_quote, innerQuotes?_one other]
    simp only [piece]
    rfl
  · show basicBody (fuel + 1) done ('"' :: '"' :: d :: tail) = _
    rw [basicBody, basicPiece?_quote, innerQuotes?_two other]
    simp only [piece]
    rfl

/-- Up to two quotes before the closing three belong to the text. -/
theorem basicBody_close {count : Nat} (few : count ≤ 2) {rest : List Char}
    (apart : rest.head? ≠ some '"') (fuel : Nat) (done : List Char) :
    basicBody (fuel + 1) done (List.replicate count '"' ++ '"' :: '"' :: '"' :: rest) =
      .ok (String.ofList (done.reverse ++ List.replicate count '"'), rest) := by
  have closed := closingQuotes_run few apart
  rcases show count = 0 ∨ count = 1 ∨ count = 2 by omega with rfl | rfl | rfl
  all_goals
    simp only [List.replicate, List.nil_append, List.cons_append] at closed ⊢
    rw [basicBody, basicPiece?_quote, innerQuotes?_three]
    simp only [closed]
    simp [Except.map]

/-- The characters between three double quotes are read back, when `count` raw
quotes stand in front of them. -/
theorem basicBody_escapeChars (text : List Char) {count : Nat} (few : count ≤ 2) (fuel : Nat)
    (done rest : List Char) (apart : rest.head? ≠ some '"') (enough : text.length < fuel) :
    basicBody fuel done (List.replicate count '"' ++ ((escapeChars true count text).toList ++
      '"' :: '"' :: '"' :: rest)) =
      .ok (String.ofList (done.reverse ++ (List.replicate count '"' ++ text)), rest) := by
  induction text generalizing count fuel done with
  | nil =>
    obtain ⟨fuel, rfl⟩ : ∃ less, fuel = less + 1 := ⟨fuel - 1, by simp at enough; omega⟩
    rw [escapeChars, List.append_nil]
    exact basicBody_close few apart fuel done
  | cons c text ih =>
    rw [List.length_cons] at enough
    obtain ⟨fuel, rfl⟩ : ∃ less, fuel = less + 1 := ⟨fuel - 1, by omega⟩
    -- What follows a character that ends the run of quotes.
    have read := ih (Nat.zero_le 2) fuel (c :: (List.replicate count '"' ++ done)) (by omega)
    have sum : (c :: (List.replicate count '"' ++ done)).reverse ++ ([] ++ text) =
        done.reverse ++ (List.replicate count '"' ++ c :: text) := by
      simp
    rw [List.replicate_zero, List.nil_append, sum] at read
    by_cases quote : c = '"'
    · rw [quote] at read ⊢
      rw [toList_escapeChars_quote]
      by_cases raw : count < 2
      · rw [if_pos ⟨rfl, raw⟩]
        have longer := ih (show count + 1 ≤ 2 by omega) (fuel + 1) done (by omega)
        rw [List.replicate_succ', List.append_assoc, List.append_assoc] at longer
        exact longer
      · have piece := basicPiece?_escapes escapes_quote fuel
          ((escapeChars true 0 text).toList ++ '"' :: '"' :: '"' :: rest)
        rw [List.cons_append, List.singleton_append] at piece
        rw [if_neg (by simp [raw]), List.cons_append, List.cons_append,
          basicBody_piece few piece (by decide)]
        exact read
    · have writes := writes_escapeChar true c
      rcases writes.head quote with ⟨d, tail, start, other⟩
      have piece := basicPiece?_written writes quote fuel
        ((escapeChars true 0 text).toList ++ '"' :: '"' :: '"' :: rest)
      rw [toList_escapeChars_cons true count quote, List.append_assoc]
      rw [start, List.cons_append] at piece ⊢
      rw [basicBody_piece few piece other]
      exact read

/-! ## Texts between single quotes -/

/-- Characters that stand between single quotes as they are, over several
lines at least. -/
def IsRaw (c : Char) : Prop := isPlain c = true ∨ c = '\n'

/-- A text without quotes is read back as it is. -/
theorem literalText_quote {text : List Char}
    (content : ∀ c ∈ text, isPlain c = true ∧ c ≠ '\'') (rest : List Char) :
    literalText (text ++ '\'' :: rest) = .ok (String.ofList text, rest) := by
  have inside : ∀ c ∈ text, (isPlain c && c != '\'') = true := by
    intro c listed
    simp [content c listed]
  unfold literalText
  simp only [List.dropWhile_append_of_pos inside, List.takeWhile_append_of_pos inside]
  simp

theorem literalPiece?_raw {c : Char} (raw : IsRaw c) (other : c ≠ '\'') (rest : List Char) :
    literalPiece? (c :: rest) = some (c, rest) := by
  rcases raw with plain | line
  · simp [literalPiece?, plain, other]
  · rw [line]
    rfl

theorem literalPiece?_quote (rest : List Char) : literalPiece? ('\'' :: rest) = none := rfl

/-- A character takes one step, with the quotes in front of it. -/
theorem literalBody_piece {count : Nat} (few : count ≤ 2) {c : Char} (raw : IsRaw c)
    (other : c ≠ '\'') (fuel : Nat) (done rest : List Char) :
    literalBody (fuel + 1) done (List.replicate count '\'' ++ c :: rest) =
      literalBody fuel (c :: (List.replicate count '\'' ++ done)) rest := by
  have piece := literalPiece?_raw raw other rest
  rcases show count = 0 ∨ count = 1 ∨ count = 2 by omega with rfl | rfl | rfl
  · show literalBody (fuel + 1) done (c :: rest) = _
    rw [literalBody, piece]
    rfl
  · show literalBody (fuel + 1) done ('\'' :: c :: rest) = _
    rw [literalBody, literalPiece?_quote, innerQuotes?_one other]
    simp only [Option.bind_some, piece, Option.map_some]
    rfl
  · show literalBody (fuel + 1) done ('\'' :: '\'' :: c :: rest) = _
    rw [literalBody, literalPiece?_quote, innerQuotes?_two other]
    simp only [Option.bind_some, piece, Option.map_some]
    rfl

/-- Up to two quotes before the closing three belong to the text. -/
theorem literalBody_close {count : Nat} (few : count ≤ 2) {rest : List Char}
    (apart : rest.head? ≠ some '\'') (fuel : Nat) (done : List Char) :
    literalBody (fuel + 1) done (List.replicate count '\'' ++ '\'' :: '\'' :: '\'' :: rest) =
      .ok (String.ofList (done.reverse ++ List.replicate count '\''), rest) := by
  have closed := closingQuotes_run few apart
  rcases show count = 0 ∨ count = 1 ∨ count = 2 by omega with rfl | rfl | rfl
  all_goals
    simp only [List.replicate, List.nil_append, List.cons_append] at closed ⊢
    rw [literalBody, literalPiece?_quote, innerQuotes?_three]
    simp only [Option.bind_none, closed]
    simp [Except.map]

/-- The characters between three single quotes are read back, when `count`
quotes stand in front of them. -/
theorem literalBody_raw (text : List Char) {count : Nat} (few : count ≤ 2) (fuel : Nat)
    (done rest : List Char) (raw : ∀ c ∈ text, IsRaw c) (runs : longestRun '\'' text count < 3)
    (apart : rest.head? ≠ some '\'') (enough : text.length < fuel) :
    literalBody fuel done (List.replicate count '\'' ++ (text ++ '\'' :: '\'' :: '\'' :: rest)) =
      .ok (String.ofList (done.reverse ++ (List.replicate count '\'' ++ text)), rest) := by
  -- On the text; a run of quotes is kept aside in `count` until a character ends it.
  induction text generalizing count fuel done with
  | nil =>
    obtain ⟨fuel, rfl⟩ : ∃ less, fuel = less + 1 := ⟨fuel - 1, by simp at enough; omega⟩
    rw [List.append_nil]
    exact literalBody_close few apart fuel done
  | cons c text ih =>
    rw [List.length_cons] at enough
    obtain ⟨fuel, rfl⟩ : ∃ less, fuel = less + 1 := ⟨fuel - 1, by omega⟩
    have others : ∀ d ∈ text, IsRaw d := fun d listed => raw d (List.mem_cons_of_mem c listed)
    rw [longestRun] at runs
    by_cases quote : c = '\''
    · rw [if_pos quote] at runs
      rw [quote]
      have longer := ih (show count + 1 ≤ 2 by omega) (fuel + 1) done others (by omega) (by omega)
      rw [List.replicate_succ', List.append_assoc, List.append_assoc] at longer
      exact longer
    · rw [if_neg quote] at runs
      have read := ih (Nat.zero_le 2) fuel (c :: (List.replicate count '\'' ++ done)) others runs
        (by omega)
      have sum : (c :: (List.replicate count '\'' ++ done)).reverse ++ ([] ++ text) =
          done.reverse ++ (List.replicate count '\'' ++ c :: text) := by
        simp
      rw [List.replicate_zero, List.nil_append, sum] at read
      rw [List.cons_append, literalBody_piece few (raw c List.mem_cons_self) quote]
      exact read

end RegisterBank.Document.Toml
