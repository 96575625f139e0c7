import RegisterBank.Document.Json.Printer
import RegisterBank.Document.Json.Reader
import RegisterBank.Proofs.Document.Digits

/-!
# Texts and numbers in JSON

A text between quotes is read back character by character, an escape counting
as one step, and a number in decimal digit by digit.  A number ends where the
next character is no digit, point or exponent, so what stands behind a value
matters here: in a written document a comma or a line break.
-/

namespace RegisterBank.Document.Json

/-! ## Texts -/

/-- The characters between the quotes of a text. -/
def escaped (text : List Char) : List Char := text.flatMap fun c => (escapeChar c).toList

theorem toList_quote (text : String) :
    (quote text).toList = '"' :: (escaped text.toList ++ ['"']) := by
  have onward : ∀ (chars : List Char) (shown : String),
      (chars.foldl (fun shown c => shown ++ escapeChar c) shown).toList =
        shown.toList ++ escaped chars := by
    intro chars
    induction chars with
    | nil => simp [escaped]
    | cons c rest ih =>
      intro shown
      rw [List.foldl_cons, ih, String.toList_append, List.append_assoc]
      rfl
  unfold quote
  rw [String.toList_append, String.toList_append, onward]
  rfl

theorem hexDigits_control : ∀ code < 32,
    (Text.padDigits 4 (Text.hexDigits code)).length = 4 ∧
    Text.byteCount (Text.padDigits 4 (Text.hexDigits code)) = 4 ∧
    (Text.padDigits 4 (Text.hexDigits code)).mapM (Text.digitValue? 16) =
      some [0, 0, code / 16, code % 16] := by
  decide

/-- The four digits of a control are read back. -/
theorem readHex_control {code : Nat} (control : code < 32) (rest : List Char) :
    readHex (Text.padDigits 4 (Text.hexDigits code) ++ rest) = .ok (code, rest) := by
  rcases hexDigits_control code control with ⟨four, bytes, values⟩
  have sum : ((0 * 16 + 0) * 16 + code / 16) * 16 + code % 16 = code := by omega
  unfold readHex
  rw [List.take_left' four, List.drop_left' four, bytes, values]
  simp only [List.foldl_cons, List.foldl_nil]
  rw [if_neg (by decide)]
  simp
  omega

theorem readUnicode_control {code : Nat} (control : code < 32) (rest : List Char) :
    readUnicode (Text.padDigits 4 (Text.hexDigits code) ++ rest) = .ok (Char.ofNat code, rest) := by
  have notTrailing : isTrailing code = false := by
    unfold isTrailing
    simp
    omega
  have notLeading : isLeading code = false := by
    unfold isLeading
    simp
    omega
  unfold readUnicode
  rw [readHex_control control]
  simp [bind, Except.bind, notTrailing, notLeading, pure, Except.pure]

/-- A character of a written text is read back in one step. -/
theorem readChars_escapeChar (fuel : Nat) (done : List Char) (c : Char) (rest : List Char) :
    readChars (fuel + 1) done ((escapeChar c).toList ++ rest) = readChars fuel (c :: done) rest := by
  unfold escapeChar
  by_cases quoted : c = '"'
  · rw [if_pos quoted, quoted]
    rfl
  rw [if_neg quoted]
  by_cases slash : c = '\\'
  · rw [if_pos slash, slash]
    rfl
  rw [if_neg slash]
  by_cases back : c = '\x08'
  · rw [if_pos back, back]
    rfl
  rw [if_neg back]
  by_cases feed : c = '\x0c'
  · rw [if_pos feed, feed]
    rfl
  rw [if_neg feed]
  by_cases line : c = '\n'
  · rw [if_pos line, line]
    rfl
  rw [if_neg line]
  by_cases carriage : c = '\r'
  · rw [if_pos carriage, carriage]
    rfl
  rw [if_neg carriage]
  by_cases tab : c = '\t'
  · rw [if_pos tab, tab]
    rfl
  rw [if_neg tab]
  by_cases control : c.toNat < 0x20
  · rw [if_pos control]
    have chars : ("\\u" ++ String.ofList (Text.padDigits 4 (Text.hexDigits c.toNat))).toList =
        '\\' :: 'u' :: Text.padDigits 4 (Text.hexDigits c.toNat) := by
      simp only [String.toList_append, String.toList_ofList]
      rfl
    rw [chars]
    show readChars (fuel + 1) done ('\\' :: 'u' :: _ ++ rest) = _
    rw [List.cons_append, List.cons_append, readChars, if_neg (by decide), if_pos rfl, readEscape,
      readUnicode_control control, Char.ofNat_toNat]
  · rw [if_neg control]
    have single : c.toString.toList = [c] := by simp
    rw [single, List.singleton_append, readChars, if_neg quoted, if_neg slash, if_neg control]

theorem readChars_escaped (fuel : Nat) (done text rest : List Char) (enough : text.length < fuel) :
    readChars fuel done (escaped text ++ '"' :: rest) =
      .ok (String.ofList (done.reverse ++ text), rest) := by
  induction text generalizing fuel done with
  | nil =>
    obtain ⟨fuel, rfl⟩ : ∃ less, fuel = less + 1 := ⟨fuel - 1, by simp at enough; omega⟩
    rw [List.append_nil]
    rfl
  | cons c text ih =>
    rw [List.length_cons] at enough
    obtain ⟨fuel, rfl⟩ : ∃ less, fuel = less + 1 := ⟨fuel - 1, by omega⟩
    have split : escaped (c :: text) = (escapeChar c).toList ++ escaped text := rfl
    rw [split, List.append_assoc, readChars_escapeChar, ih fuel (c :: done) (by omega),
      List.reverse_cons, List.append_assoc]
    rfl

/-- No character is written as nothing: a quote behind it would end the text early. -/
theorem escapeChar_ne_nil (c : Char) : (escapeChar c).toList ≠ [] := by
  intro nothing
  have step := readChars_escapeChar 0 [] c ['"']
  rw [nothing] at step
  cases step

theorem length_le_escaped (text : List Char) : text.length ≤ (escaped text).length := by
  induction text with
  | nil => exact Nat.le_refl 0
  | cons c text ih =>
    have filled := List.length_pos_iff.mpr (escapeChar_ne_nil c)
    have split : escaped (c :: text) = (escapeChar c).toList ++ escaped text := rfl
    rw [split, List.length_append, List.length_cons]
    omega

/-- A written text is read back behind its opening quote. -/
theorem readText_quote {fuel : Nat} (text : String) (rest : List Char)
    (enough : (quote text).toList.length ≤ fuel + 1) :
    readText fuel (escaped text.toList ++ '"' :: rest) = .ok (text, rest) := by
  have long := length_le_escaped text.toList
  rw [toList_quote, List.length_cons, List.length_append, List.length_singleton] at enough
  unfold readText
  rw [readChars_escaped fuel [] text.toList rest (by omega)]
  simp

/-! ## Numbers -/

theorem absorbDigits_append (value : Nat) (digits others : List Char) {sum : Nat}
    (absorbed : absorbDigits value digits = (sum, 0)) :
    absorbDigits value (digits ++ others) = absorbDigits sum others := by
  induction digits generalizing value with
  | nil =>
    rw [absorbDigits, Prod.mk.injEq] at absorbed
    rw [List.nil_append, absorbed.1]
  | cons c digits ih =>
    rw [List.cons_append, absorbDigits]
    rw [absorbDigits] at absorbed
    by_cases small : value * 10 + digit c < Text.integerLimit
    · simp only [if_pos small] at absorbed ⊢
      exact ih _ absorbed
    · simp only [if_neg small, Prod.mk.injEq] at absorbed
      omega

theorem digit_digitChar {value : Nat} (small : value < 10) : digit value.digitChar = value :=
  (digitChar_spec value small).2

theorem absorbDigits_decimal {value : Nat} (small : value < Text.integerLimit) :
    absorbDigits 0 (decimal value) = (value, 0) := by
  induction value using Nat.strongRecOn with
  | ind value ih =>
    rw [decimal_eq]
    by_cases single : value < 10
    · rw [if_pos single, absorbDigits, digit_digitChar single]
      simp [small, absorbDigits]
    · have last : value % 10 < 10 := Nat.mod_lt value (by decide)
      have sum : value / 10 * 10 + value % 10 = value := Nat.div_add_mod' value 10
      rw [if_neg single, absorbDigits_append 0 _ _ (ih (value / 10) (by omega) (by omega)),
        absorbDigits, digit_digitChar last, sum]
      simp [small, absorbDigits]

/-- What stands behind a value: nothing, a comma, or the line break before a
bracket. -/
def Ends (rest : List Char) : Prop := ∀ c more, rest = c :: more → c = ',' ∨ c = '\n'

theorem ends_nil : Ends [] := by
  intro c more same
  cases same

theorem ends_cons {c : Char} (mark : c = ',' ∨ c = '\n') (more : List Char) : Ends (c :: more) := by
  intro d others same
  rw [← (List.cons.inj same).1]
  exact mark

section Numbers

variable {rest : List Char}

/-- A number does not go on behind a value. -/
theorem Ends.not_isDigit (ends : Ends rest) : rest.head?.any Char.isDigit = false := by
  cases rest with
  | nil => rfl
  | cons c more =>
    rcases ends c more rfl with rfl | rfl
    · rfl
    · rfl

theorem takeWhile_isDigit (digits : List Char) (all : ∀ c ∈ digits, c.isDigit = true)
    (stop : rest.head?.any Char.isDigit = false) :
    (digits ++ rest).takeWhile Char.isDigit = digits ∧
      (digits ++ rest).dropWhile Char.isDigit = rest := by
  rw [List.takeWhile_append_of_pos all, List.dropWhile_append_of_pos all]
  cases rest with
  | nil => exact ⟨List.append_nil digits, rfl⟩
  | cons c more =>
    have other : ¬ c.isDigit = true := Bool.eq_false_iff.mp stop
    rw [List.takeWhile_cons_of_neg other, List.dropWhile_cons_of_neg other, List.append_nil]
    exact ⟨rfl, rfl⟩

/-- A zero in front is the whole number. -/
theorem no_leading_zero {value : Nat} {c : Char} {others : List Char}
    (start : decimal value = c :: others) (stop : rest.head?.any Char.isDigit = false) :
    ¬(c = '0' ∧ (others ++ rest).head?.any Char.isDigit = true) := by
  intro ⟨zero, second⟩
  rcases decimal_head value with alone | ⟨d, tail, other, notZero⟩
  · rw [alone] at start
    rw [← (List.cons.inj start).2, List.nil_append, stop] at second
    cases second
  · rw [other] at start
    exact notZero ((List.cons.inj start).1.trans zero)

/-- An integer that is written in decimal is read back. -/
theorem readNumber_decimal {value : Nat} (small : value < Text.integerLimit) (ends : Ends rest) :
    readNumber false (decimal value ++ rest) = .ok (.int value, rest) := by
  have digits := isDigit_of_mem_decimal value
  obtain ⟨taken, dropped⟩ := takeWhile_isDigit (decimal value) digits ends.not_isDigit
  rcases List.exists_cons_of_ne_nil (decimal_ne_nil value) with ⟨c, others, start⟩
  have first : c.isDigit = true := digits c (by rw [start]; exact List.mem_cons_self)
  have lone := no_leading_zero start ends.not_isDigit
  have shape : decimal value ++ rest = c :: (others ++ rest) := by
    rw [start]
    rfl
  unfold readNumber
  rw [taken, dropped, absorbDigits_decimal small, shape]
  simp only [first, Bool.not_true, Bool.false_eq_true, if_false]
  rw [if_neg lone]
  cases rest with
  | nil => rfl
  | cons after more =>
    rcases ends after more rfl with rfl | rfl
    · rfl
    · rfl

end Numbers

end RegisterBank.Document.Json
