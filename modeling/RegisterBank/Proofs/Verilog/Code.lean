import RegisterBank.Proofs.Document.Digits
import RegisterBank.Proofs.Text.Identifiers
import RegisterBank.Proofs.Text.Integers
import RegisterBank.Proofs.Verilog.Scope

/-!
# Printed code, read back

`Code` says of a piece of a line what its tokens are like.  Pieces may be put
together where one of them keeps a word from running on, so the printer is gone
through once, over expressions and statements: what is printed uses only known
names, selects only bits that there are, and has only constants that fit,
provided that the same holds of the syntax (`Fits`).
-/

namespace RegisterBank.Verilog

/-! ## Pieces of code -/

/-- A piece that ends no line and starts no comment. -/
def OnLine (piece : String) : Prop := ∀ c ∈ piece.toList, c ≠ '\n' ∧ c ≠ '/'

theorem onLine_of_all {piece : String}
    (checked : (piece.toList.all fun c => c != '\n' && c != '/') = true) : OnLine piece := by
  intro c listed
  simpa using List.all_eq_true.mp checked c listed

/-- Pieces that stay on their line stay on it together. -/
theorem OnLine.append {piece next : String} (here : OnLine piece) (there : OnLine next) :
    OnLine (piece ++ next) := by
  intro c listed
  rw [String.toList_append] at listed
  exact (List.mem_append.mp listed).elim (here c) (there c)

/-- A piece of a line of code, outside any comment. -/
structure Code (widths : Nets) (known : List String) (piece : String) (declared : List String) :
    Prop where
  onLine : OnLine piece
  reads : Reads widths known (lineTokens piece.toList) declared

/-- A text of words of the language and of symbols other than an opening
bracket. -/
def isFixedText (piece : String) : Bool :=
  (piece.toList.all fun c => c != '\n' && c != '/') &&
    (lineTokens piece.toList).all fun token =>
      token != "[" && !token.toList.contains '\'' && (!isName token || plainWords.contains token)

section Pieces

variable {widths : Nets} {known declared later : List String} {piece next : String}

/-- Two pieces are read one after the other where their words do not touch. -/
theorem Code.append (here : Code widths known piece declared)
    (there : Code widths declared next later)
    (apart : endsApart piece.toList = true ∨ startsApart next.toList = true) :
    Code widths known (piece ++ next) later where
  onLine := here.onLine.append there.onLine
  reads := by
    rw [String.toList_append, lineTokens_append apart]
    exact here.reads.trans there.reads

theorem onLine_of_word {word : String} (characters : ∀ c ∈ word.toList, isWordChar c = true) :
    OnLine word := by
  intro c listed
  constructor
  · rintro rfl
    exact absurd (characters _ listed) (by decide)
  · rintro rfl
    exact absurd (characters _ listed) (by decide)

/-- A word that is one token. -/
theorem Code.word {word : String} (characters : ∀ c ∈ word.toList, isWordChar c = true)
    (filled : word.toList ≠ []) (walk : Scoped known ([word].filter isName) declared)
    (constant : '\'' ∈ word.toList → HoldsValue word) : Code widths known word declared where
  onLine := onLine_of_word characters
  reads := by
    rw [lineTokens_word characters filled, String.ofList_toList]
    refine ⟨walk, .single constant ?_⟩
    rintro rfl
    exact absurd (characters '[' (by decide)) (by decide)

/-- Text that the printer brings along uses no nets and needs nothing of
them. -/
theorem Code.fixed (checked : isFixedText piece = true) : Code widths known piece known := by
  obtain ⟨characters, words⟩ := Bool.and_eq_true_iff.mp checked
  rw [List.all_eq_true] at words
  simp only [Bool.and_eq_true, bne_iff_ne, Bool.not_eq_true', Bool.or_eq_true,
    List.contains_eq_mem, decide_eq_true_eq, decide_eq_false_iff_not] at words
  refine ⟨onLine_of_all characters, .of_forall ?_,
    .of_forall fun token listed => (words token listed).1⟩
  intro token listed
  obtain ⟨member, named⟩ := List.mem_filter.mp listed
  rcases (words token member).2 with other | plain
  · rw [named] at other
    cases other
  · exact Or.inl plain

theorem Code.empty : Code widths known "" known := .fixed (by decide)

/-- A fixed text in front of a piece, with a symbol or a blank between. -/
theorem Code.prefixed {start : String} (there : Code widths known next later)
    (checked : (isFixedText start && endsApart start.toList) = true) :
    Code widths known (start ++ next) later := by
  rw [Bool.and_eq_true] at checked
  exact (Code.fixed checked.1).append there (Or.inl checked.2)

/-- A fixed text behind a piece, with a symbol or a blank between. -/
theorem Code.suffixed {ending : String} (here : Code widths known piece declared)
    (checked : (isFixedText ending && startsApart ending.toList) = true) :
    Code widths known (piece ++ ending) declared := by
  rw [Bool.and_eq_true] at checked
  exact here.append (Code.fixed checked.1) (Or.inr checked.2)

theorem endsApart_append {start ending : List Char} (filled : ending ≠ []) :
    endsApart (start ++ ending) = endsApart ending := by
  unfold endsApart
  rw [List.getLast?_append_of_ne_nil start filled]

theorem startsApart_append {start ending : List Char} (filled : start ≠ []) :
    startsApart (start ++ ending) = startsApart start := by
  unfold startsApart
  rw [List.head?_append_of_ne_nil start filled]

/-- A piece between two fixed texts. -/
theorem Code.wrapped {start ending : String} (inner : Code widths known piece declared)
    (checked : (isFixedText start && endsApart start.toList
      && (isFixedText ending && startsApart ending.toList)) = true) :
    Code widths known (start ++ piece ++ ending) declared := by
  rw [Bool.and_eq_true] at checked
  exact (inner.prefixed checked.1).suffixed checked.2

/-- Two pieces with a fixed text between them that keeps them apart. -/
theorem Code.joined {middle : String} (here : Code widths known piece declared)
    (there : Code widths declared next later)
    (checked : (isFixedText middle && startsApart middle.toList && endsApart middle.toList
      && !middle.toList.isEmpty) = true) :
    Code widths known (piece ++ middle ++ next) later := by
  simp only [Bool.and_eq_true, Bool.not_eq_true', List.isEmpty_eq_false_iff] at checked
  obtain ⟨⟨⟨fixed, starts⟩, ends⟩, filled⟩ := checked
  refine (here.append (Code.fixed fixed) (Or.inr starts)).append there (Or.inl ?_)
  rw [String.toList_append, endsApart_append filled]
  exact ends

theorem toList_padRight (column : Nat) (piece : String) : (padRight column piece).toList =
    piece.toList ++ List.replicate (column - piece.length) ' ' := by
  unfold padRight
  rw [String.toList_append, String.toList_ofList]

theorem startsApart_blanks (count : Nat) : startsApart (List.replicate count ' ') = true := by
  have blank : isWordChar ' ' = false := by decide
  cases count with
  | zero => rfl
  | succ count => simp [startsApart, List.replicate_succ, blank]

/-- Blanks behind a piece are no tokens. -/
theorem lineTokens_padRight (column : Nat) (piece : String) :
    lineTokens (padRight column piece).toList = lineTokens piece.toList := by
  rw [toList_padRight, lineTokens_append (Or.inr (startsApart_blanks _)), lineTokens_blanks,
    List.append_nil]

/-- Padding adds blanks only. -/
theorem OnLine.padRight (here : OnLine piece) (column : Nat) : OnLine (padRight column piece) := by
  intro c listed
  rw [toList_padRight] at listed
  rcases List.mem_append.mp listed with inside | blank
  · exact here c inside
  · rw [(List.mem_replicate.mp blank).2]
    decide

theorem endsApart_padRight (here : endsApart piece.toList = true) (column : Nat) :
    endsApart (padRight column piece).toList = true := by
  have blank : isWordChar ' ' = false := by decide
  rw [toList_padRight]
  cases column - piece.length with
  | zero => rwa [List.replicate_zero, List.append_nil]
  | succ count =>
    rw [endsApart_append (by simp)]
    simp [endsApart, List.getLast?_replicate, blank]

/-- A piece in a column is read as the piece. -/
theorem Code.padRight (here : Code widths known piece declared) (column : Nat) :
    Code widths known (padRight column piece) declared :=
  ⟨here.onLine.padRight column, by rw [lineTokens_padRight]; exact here.reads⟩

/-! ## Words -/

theorem isWordChar_of_isIdentifierRest {c : Char} (inside : Text.isIdentifierRest c = true) :
    isWordChar c = true := by
  unfold isWordChar
  rw [inside, Bool.true_or]

/-- What lexing needs to know of an identifier. -/
theorem characters_of_isIdentifier {name : String} (identifier : Text.isIdentifier name = true) :
    (∀ c ∈ name.toList, Text.isIdentifierRest c = true) ∧ name.toList ≠ [] ∧
      isName name = true := by
  refine ⟨fun c listed => Text.isIdentifierRest_of_mem identifier listed, ?_⟩
  unfold Text.isIdentifier at identifier
  unfold isName
  cases chars : name.toList with
  | nil =>
    rw [chars] at identifier
    cases identifier
  | cons first rest =>
    rw [chars, Text.isIdentifierChars, Bool.and_eq_true] at identifier
    exact ⟨List.cons_ne_nil _ _, identifier.1⟩

theorem isWordChar_of_isIdentifier {name : String} (identifier : Text.isIdentifier name = true) :
    ∀ c ∈ name.toList, isWordChar c = true := fun _ listed =>
  isWordChar_of_isIdentifierRest (Text.isIdentifierRest_of_mem identifier listed)

theorem onLine_of_isIdentifier {name : String} (identifier : Text.isIdentifier name = true) :
    OnLine name :=
  onLine_of_word (isWordChar_of_isIdentifier identifier)

/-- An identifier is one token. -/
theorem lineTokens_identifier {name : String} (identifier : Text.isIdentifier name = true) :
    lineTokens name.toList = [name] := by
  rw [lineTokens_word (isWordChar_of_isIdentifier identifier)
    (characters_of_isIdentifier identifier).2.1, String.ofList_toList]

/-- An identifier is no bracket and no sized constant. -/
theorem plain_of_isIdentifier {name : String} (identifier : Text.isIdentifier name = true) :
    name ≠ "[" ∧ '\'' ∉ name.toList := by
  obtain ⟨characters, -, -⟩ := characters_of_isIdentifier identifier
  constructor
  · rintro rfl
    exact absurd (characters '[' (by decide)) (by decide)
  · exact fun quoted => absurd (characters _ quoted) (by decide)

/-- An identifier, whatever it does to what is known. -/
theorem Code.identifier {name : String} (identifier : Text.isIdentifier name = true)
    (walk : Scoped known [name] declared) : Code widths known name declared := by
  obtain ⟨-, filled, named⟩ := characters_of_isIdentifier identifier
  refine .word (isWordChar_of_isIdentifier identifier) filled ?_ ?_
  · rw [List.filter_cons_of_pos named]
    exact walk
  · exact fun quoted => absurd quoted (plain_of_isIdentifier identifier).2

theorem isWordChar_of_isDigit {c : Char} (digit : c.isDigit = true) : isWordChar c = true := by
  refine isWordChar_of_isIdentifierRest ?_
  unfold Text.isIdentifierRest Char.isAlphanum
  rw [digit, Bool.or_true, Bool.true_or]

/-- A word that starts with a digit is no name. -/
theorem isName_of_decimal {word : String} {value : Nat} {rest : List Char}
    (start : word.toList = Document.decimal value ++ rest) : isName word = false := by
  unfold isName
  rw [start]
  cases digits : Document.decimal value with
  | nil => exact absurd digits (Document.decimal_ne_nil value)
  | cons c others =>
    have digit : c.isDigit = true :=
      Document.isDigit_of_mem_decimal value c (by rw [digits]; exact List.mem_cons_self)
    have letter : c.isAlpha = false := by
      by_contra alpha
      rw [Bool.not_eq_false, Text.isAlpha_iff] at alpha
      have range := Text.isDigit_iff.mp digit
      omega
    have underscore : (c == '_') = false :=
      beq_eq_false_iff_ne.mpr (Document.ne_of_isDigit digit (by decide))
    show Text.isIdentifierStart c = false
    unfold Text.isIdentifierStart
    rw [letter, underscore]
    rfl

theorem isWordChar_of_mem_toString (value : Nat) :
    ∀ c ∈ (toString value).toList, isWordChar c = true := by
  intro c listed
  rw [Document.toList_toString] at listed
  exact isWordChar_of_isDigit (Document.isDigit_of_mem_decimal value c listed)

/-- A number is one token. -/
theorem lineTokens_toString (value : Nat) :
    lineTokens (toString value).toList = [toString value] := by
  rw [lineTokens_word (isWordChar_of_mem_toString value), String.ofList_toList]
  rw [Document.toList_toString]
  exact Document.decimal_ne_nil value

/-! ## Sized constants -/

/-- A constant of digits that have its value is one word. -/
theorem Code.sized (base : Nat) {word : String} {width value : Nat} {mark : Char}
    {digits : List Char} (announced : (mark, base) ∈ [('h', 16), ('b', 2)])
    (chars : word.toList = (toString width).toList ++ '\'' :: mark :: digits)
    (inside : ∀ c ∈ digits, isWordChar c = true)
    (written : Text.digitsValue? base 0 (digits.filter (· != '_')) = some value)
    (small : value < 2 ^ width) : Code widths known word known := by
  have marks : ∀ entry ∈ [('h', 16), ('b', 2)], isWordChar entry.1 = true := by decide
  have characters : ∀ c ∈ word.toList, isWordChar c = true := by
    intro c listed
    rw [chars] at listed
    rcases List.mem_append.mp listed with digit | listed
    · exact isWordChar_of_mem_toString width c digit
    rcases List.mem_cons.mp listed with rfl | listed
    · decide
    rcases List.mem_cons.mp listed with rfl | listed
    · exact marks _ announced
    · exact inside c listed
  have number : isName word = false :=
    isName_of_decimal (chars.trans (by rw [Document.toList_toString]))
  refine .word characters (by rw [chars]; simp) ?_ fun _ =>
    ⟨width, base, mark, digits, value, announced, chars, written, small⟩
  rw [List.filter_cons_of_neg (by rw [number]; exact Bool.false_ne_true)]
  exact .nil

theorem isWordChar_digitChar : ∀ digit < 16,
    isWordChar digit.digitChar = true ∧ digit.digitChar ≠ '_' := by
  decide

/-- Padded digits are characters of words, and no underscores. -/
theorem forall_mem_padDigits {base : Nat} (large : 1 < base) (few : base ≤ 16) (count value : Nat) :
    ∀ c ∈ Text.padDigits count (Nat.toDigits base value), isWordChar c = true ∧ c ≠ '_' := by
  intro c listed
  rcases List.mem_append.mp listed with zero | digit
  · rw [(List.mem_replicate.mp zero).2]
    decide
  · exact Text.forall_mem_toDigits large (fun c => isWordChar c = true ∧ c ≠ '_')
      (fun digit small => isWordChar_digitChar digit (Nat.lt_of_lt_of_le small few)) value c digit

/-- A hexadecimal literal fits its width. -/
theorem Code.hex {width value : Nat} (small : value < 2 ^ width) :
    Code widths known (sizedHex width value) known := by
  have digits : ∀ c ∈ Text.padDigits (Text.digitCount width) (Text.hexDigits value),
      isWordChar c = true ∧ c ≠ '_' :=
    forall_mem_padDigits (by decide) (Nat.le_refl 16) (Text.digitCount width) value
  have chars : (sizedHex width value).toList = (toString width).toList ++ '\'' :: 'h' ::
      Text.groupDigits (Text.padDigits (Text.digitCount width) (Text.hexDigits value)) := by
    show (toString width ++ "'h" ++ String.ofList _).toList = _
    simp [Text.hexDigits]
  refine .sized 16 (by decide) chars ?_ ?_ small
  · intro c listed
    rcases Text.mem_of_mem_groupDigits listed with digit | rfl
    · exact (digits c digit).1
    · decide
  · rw [Text.filter_groupDigits fun c listed => (digits c listed).2,
      Text.digitsValue?_padDigits (by decide), Text.digitsValue?_hexDigits]

/-- A binary literal fits its width. -/
theorem Code.binary {width value : Nat} (small : value < 2 ^ width) :
    Code widths known (sizedBinary width value) known := by
  have digits := forall_mem_padDigits (show 1 < 2 by decide) (by decide) width value
  have chars : (sizedBinary width value).toList = (toString width).toList ++ '\'' :: 'b' ::
      Text.padDigits width (Nat.toDigits 2 value) := by
    show (toString width ++ "'b" ++ String.ofList _).toList = _
    simp
  have plain : (Text.padDigits width (Nat.toDigits 2 value)).filter (· != '_') =
      Text.padDigits width (Nat.toDigits 2 value) :=
    List.filter_eq_self.mpr fun c listed => bne_iff_ne.mpr (digits c listed).2
  refine .sized 2 (by decide) chars (fun c listed => (digits c listed).1) ?_ small
  rw [plain, Text.digitsValue?_padDigits (by decide),
    Text.digitsValue?_toDigits (by decide) (by decide)]

/-! ## Selects -/

theorem lineTokens_toString_append {c : Char} (other : isWordChar c = false) (value : Nat)
    (rest : List Char) : lineTokens ((toString value).toList ++ c :: rest) =
      toString value :: (symbolTokens c ++ lineTokens rest) := by
  rw [lineTokens_append_cons other, lineTokens_toString]
  rfl

/-- The tokens of a range in brackets. -/
theorem lineTokens_bits (bits : BitRange) : lineTokens bits.text.toList =
    "[" :: if bits.width = 1 then [toString bits.lsb, "]"]
      else [toString bits.msb, ":", toString bits.lsb, "]"] := by
  unfold BitRange.text
  split
  · have chars : ("[" ++ toString bits.lsb ++ "]").toList =
        '[' :: ((toString bits.lsb).toList ++ [']']) := by simp
    refine (congrArg lineTokens chars).trans ?_
    rw [lineTokens_cons (by decide), lineTokens_toString_append (by decide)]
    rfl
  · have chars : ("[" ++ toString bits.msb ++ ":" ++ toString bits.lsb ++ "]").toList =
        '[' :: ((toString bits.msb).toList ++ ':' :: ((toString bits.lsb).toList ++ [']'])) := by
      simp
    refine (congrArg lineTokens chars).trans ?_
    rw [lineTokens_cons (by decide), lineTokens_toString_append (by decide),
      lineTokens_toString_append (by decide)]
    rfl

/-- A number is no symbol, no name and no sized constant. -/
theorem plain_toString (value : Nat) :
    isName (toString value) = false ∧ toString value ≠ "[" ∧ '\'' ∉ (toString value).toList := by
  have digits := Document.isDigit_of_mem_decimal value
  have chars := Document.toList_toString value
  refine ⟨isName_of_decimal (chars.trans (List.append_nil _).symm), ?_, ?_⟩
  · intro bracket
    rw [bracket] at chars
    exact absurd (digits '[' (by rw [← chars]; decide)) (by decide)
  · rw [chars]
    exact fun quoted => absurd (digits _ quoted) (by decide)

theorem onLine_toString (value : Nat) : OnLine (toString value) :=
  onLine_of_word (isWordChar_of_mem_toString value)

theorem onLine_bits (bits : BitRange) : OnLine bits.text := by
  have opening : OnLine "[" := onLine_of_all (by decide)
  have closing : OnLine "]" := onLine_of_all (by decide)
  have colon : OnLine ":" := onLine_of_all (by decide)
  unfold BitRange.text
  split
  · exact (opening.append (onLine_toString _)).append closing
  · exact (((opening.append (onLine_toString _)).append colon).append (onLine_toString _)).append
      closing

theorem startsApart_bits (bits : BitRange) : startsApart bits.text.toList = true := by
  have bracket : isWordChar '[' = false := by decide
  unfold BitRange.text
  split
  · show startsApart ("[" ++ toString bits.lsb ++ "]").toList = true
    simp [startsApart, bracket]
  · show startsApart ("[" ++ toString bits.msb ++ ":" ++ toString bits.lsb ++ "]").toList = true
    simp [startsApart, bracket]

/-- A plain number is neither a name nor a literal with a width. -/
theorem Code.number (value : Nat) : Code widths known (toString value) known := by
  obtain ⟨noName, other, unquoted⟩ := plain_toString value
  refine ⟨onLine_toString value, ?_⟩
  rw [lineTokens_toString]
  refine ⟨?_, .single (fun quoted => absurd quoted unquoted) other⟩
  rw [List.filter_cons_of_neg (by rw [noName]; exact Bool.false_ne_true)]
  exact .nil

/-- What stands in brackets is numbers, a colon and the closing bracket. -/
theorem plain_of_mem_range (high low : Nat) :
    ∀ token ∈ [toString high, ":", toString low, "]"],
      isName token = false ∧ token ≠ "[" ∧ '\'' ∉ token.toList := by
  intro token listed
  simp only [List.mem_cons, List.not_mem_nil, or_false] at listed
  rcases listed with rfl | rfl | rfl | rfl
  · exact plain_toString high
  · decide
  · exact plain_toString low
  · decide

/-- A select stays inside the vector that it is taken of. -/
theorem Code.select {name : String} (identifier : Text.isIdentifier name = true)
    (listed : name ∈ known) {bits : BitRange} (positive : 0 < bits.width)
    (inside : bits.above ≤ widths.get name) :
    Code widths known (name ++ bits.text) known := by
  obtain ⟨other, unquoted⟩ := plain_of_isIdentifier identifier
  -- The tokens behind the opening bracket, whichever way the range is written.
  obtain ⟨behind, tokens, plain, upTo⟩ : ∃ behind, lineTokens bits.text.toList = "[" :: behind ∧
      (∀ token ∈ behind, isName token = false ∧ token ≠ "[" ∧ '\'' ∉ token.toList) ∧
      SelectsUpTo (widths.get name - 1) behind := by
    have range := plain_of_mem_range bits.msb bits.lsb
    rw [lineTokens_bits]
    unfold BitRange.above at inside
    by_cases single : bits.width = 1
    · rw [if_pos single]
      refine ⟨_, rfl, ?_, bits.lsb, bits.lsb, [], Nat.le_refl _, by omega, Or.inr ⟨rfl, rfl⟩⟩
      exact fun token member => range token (List.mem_of_mem_tail (List.mem_of_mem_tail member))
    · rw [if_neg single]
      refine ⟨_, rfl, range, bits.msb, bits.lsb, [], ?_, ?_, Or.inl rfl⟩
      · unfold BitRange.msb
        omega
      · unfold BitRange.msb
        omega
  refine ⟨(onLine_of_isIdentifier identifier).append (onLine_bits bits), ?_⟩
  rw [String.toList_append, lineTokens_append (Or.inr (startsApart_bits bits)),
    lineTokens_identifier identifier, tokens, List.singleton_append]
  refine ⟨.of_forall ?_, .bracket (Or.inr upTo) other unquoted
    (.of_forall fun token member => (plain token member).2)⟩
  intro token member
  obtain ⟨member, nameToken⟩ := List.mem_filter.mp member
  rcases List.mem_cons.mp member with rfl | member
  · exact Or.inr listed
  rcases List.mem_cons.mp member with rfl | member
  · exact absurd nameToken (by decide)
  · rw [(plain token member).1] at nameToken
    cases nameToken

end Pieces

end RegisterBank.Verilog
