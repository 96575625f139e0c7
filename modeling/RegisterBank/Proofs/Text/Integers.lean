import Mathlib.Algebra.Order.Group.Nat
import RegisterBank.Text.HexDigits
import RegisterBank.Text.Integer

/-!
# Hexadecimal constants read back

`Nat.toDigits` puts the last digit at the end, and `digitsValue?` runs from the
first digit on, so the two meet in `digitsValue?_append`: the value of the
digits before the last is the quotient by the base.  What stands around the
digits of a constant is no obstacle, since no hexadecimal digit is a blank, an
underscore or a plus sign.
-/

namespace RegisterBank.Text

/-! ## Runs of digits -/

theorem isDigit_iff {c : Char} : c.isDigit = true ↔ 48 ≤ c.toNat ∧ c.toNat ≤ 57 := by
  unfold Char.isDigit
  rw [Bool.and_eq_true, decide_eq_true_iff, decide_eq_true_iff]
  rfl

/-- What holds of all digits of a base holds of the digits of a number. -/
theorem forall_mem_toDigits {base : Nat} (large : 1 < base) (holds : Char → Prop)
    (digits : ∀ digit < base, holds digit.digitChar) (value : Nat) :
    ∀ c ∈ Nat.toDigits base value, holds c := by
  induction value using Nat.strongRecOn with
  | ind value ih =>
    rw [Nat.toDigits_eq_if large]
    by_cases small : value < base
    · rw [if_pos small]
      intro c listed
      rw [List.mem_singleton.mp listed]
      exact digits value small
    · have positive : 0 < value := by omega
      rw [if_neg small]
      intro c listed
      rcases List.mem_append.mp listed with early | last
      · exact ih (value / base) (Nat.div_lt_self positive large) c early
      · rw [List.mem_singleton.mp last]
        exact digits _ (Nat.mod_lt value (by omega))

theorem digitsValue?_append (base value : Nat) (digits others : List Char) :
    digitsValue? base value (digits ++ others) =
      (digitsValue? base value digits).bind fun value => digitsValue? base value others := by
  induction digits generalizing value with
  | nil => rfl
  | cons c rest ih =>
    rw [List.cons_append, digitsValue?, digitsValue?]
    cases digitValue? base c with
    | none => rfl
    | some digit => exact ih (value * base + digit)

theorem digitValue?_digitChar : ∀ base ≤ 16, ∀ digit < base,
    digitValue? base digit.digitChar = some digit := by
  decide

/-- The digits of a number have its value. -/
theorem digitsValue?_toDigits {base : Nat} (large : 1 < base) (known : base ≤ 16) (value : Nat) :
    digitsValue? base 0 (Nat.toDigits base value) = some value := by
  induction value using Nat.strongRecOn with
  | ind value ih =>
    rw [Nat.toDigits_eq_if large]
    by_cases small : value < base
    · rw [if_pos small, digitsValue?, digitValue?_digitChar base known value small]
      simp [digitsValue?]
    · have positive : 0 < value := by omega
      rw [if_neg small, digitsValue?_append, ih (value / base) (Nat.div_lt_self positive large)]
      have last : value % base < base := Nat.mod_lt value (by omega)
      simp only [Option.bind_some, digitsValue?, digitValue?_digitChar base known _ last]
      rw [Nat.div_add_mod']

theorem digitsValue?_hexDigits (value : Nat) :
    digitsValue? 16 0 (hexDigits value) = some value :=
  digitsValue?_toDigits (by decide) (Nat.le_refl 16) value

/-- Zeros in front change nothing. -/
theorem digitsValue?_padDigits {base : Nat} (positive : 0 < base) (count : Nat)
    (digits : List Char) :
    digitsValue? base 0 (padDigits count digits) = digitsValue? base 0 digits := by
  have zero : digitValue? base '0' = some 0 := by
    show (if 0 < base then some 0 else none) = some 0
    exact if_pos positive
  have zeros (many : Nat) : digitsValue? base 0 (List.replicate many '0') = some 0 := by
    induction many with
    | zero => rfl
    | succ many ih =>
      rw [List.replicate_succ, digitsValue?, zero]
      simpa using ih
  unfold padDigits
  rw [digitsValue?_append, zeros]
  rfl

/-! ## The characters of a constant -/

/-- What the digits of a constant are not. -/
def IsPlainDigit (c : Char) : Prop := isBlank c = false ∧ c ≠ '_' ∧ c ≠ '+'

theorem isPlainDigit_digitChar : ∀ digit < 16, IsPlainDigit digit.digitChar := by
  unfold IsPlainDigit
  decide

theorem isPlainDigit_of_mem_hexDigits (value : Nat) :
    ∀ c ∈ hexDigits value, IsPlainDigit c :=
  forall_mem_toDigits (by decide) IsPlainDigit isPlainDigit_digitChar value

/-- Grouping puts in underscores only. -/
theorem filter_groupDigits {digits : List Char} (plain : ∀ c ∈ digits, c ≠ '_') :
    (groupDigits digits).filter (· != '_') = digits := by
  induction digits with
  | nil => rfl
  | cons digit rest ih =>
    have first := plain digit List.mem_cons_self
    have others := ih fun c listed => plain c (List.mem_cons_of_mem _ listed)
    unfold groupDigits
    split
    · simp [first, others]
    · simp [first, others]

/-- Grouping adds nothing but underscores. -/
theorem mem_of_mem_groupDigits {digits : List Char} {c : Char}
    (listed : c ∈ groupDigits digits) : c ∈ digits ∨ c = '_' := by
  induction digits with
  | nil => exact Or.inl listed
  | cons digit rest ih =>
    unfold groupDigits at listed
    split at listed
    · rcases List.mem_cons.mp listed with rfl | later
      · exact .inl List.mem_cons_self
      rcases List.mem_cons.mp later with rfl | behind
      · exact .inr rfl
      · exact (ih behind).imp_left (List.mem_cons_of_mem _)
    · rcases List.mem_cons.mp listed with rfl | behind
      · exact .inl List.mem_cons_self
      · exact (ih behind).imp_left (List.mem_cons_of_mem _)

/-- A text whose characters are no blanks is left as it is. -/
theorem trimBlanks_of_forall {text : List Char} (solid : ∀ c ∈ text, isBlank c = false) :
    trimBlanks text = text := by
  have kept : ∀ {chars : List Char}, (∀ c ∈ chars, isBlank c = false) →
      chars.dropWhile isBlank = chars := by
    intro chars dark
    cases chars with
    | nil => rfl
    | cons c rest => rw [List.dropWhile_cons_of_neg]; simp [dark c List.mem_cons_self]
  unfold trimBlanks
  rw [kept solid, kept, List.reverse_reverse]
  intro c listed
  exact solid c (List.mem_reverse.mp listed)

/-- Around a text whose characters are no blanks, one blank on each side is cut. -/
theorem trimBlanks_between {text : List Char} (solid : ∀ c ∈ text, isBlank c = false) :
    trimBlanks (' ' :: (text ++ [' '])) = text := by
  have blank : isBlank ' ' = true := by decide
  have front (chars : List Char) : (' ' :: chars).dropWhile isBlank = chars.dropWhile isBlank :=
    List.dropWhile_cons_of_pos blank
  cases text with
  | nil => rfl
  | cons c rest =>
    have dark : ¬ isBlank c = true := by
      rw [solid c List.mem_cons_self]
      exact Bool.false_ne_true
    have trimmed := trimBlanks_of_forall solid
    unfold trimBlanks at trimmed ⊢
    rw [List.dropWhile_cons_of_neg dark] at trimmed
    rw [front, List.cons_append, List.dropWhile_cons_of_neg dark, ← List.cons_append,
      List.reverse_append, List.reverse_singleton, List.singleton_append, front]
    exact trimmed

/-! ## Constants -/

/-- Digits without a sign, which have a value below the limit, are read. -/
theorem unsignedValue?_of_digits {base value : Nat} {digits : List Char} (unsigned : '+' ∉ digits)
    (filled : digits ≠ []) (read : digitsValue? base 0 digits = some value)
    (small : value < integerLimit) : unsignedValue? base digits = some value := by
  unfold unsignedValue?
  split
  · exact absurd List.mem_cons_self unsigned
  · simp only [List.isEmpty_eq_false_iff.mpr filled, read, small, if_true]
    rfl

/-- What is written behind the mark of hexadecimal notation reads back, with
underscores among its digits and a blank on each side or without them. -/
theorem integer?_hex {written : List Char} {value : Nat}
    (solid : ∀ c ∈ written, isBlank c = false ∧ c ≠ '+')
    (filled : written.filter (· != '_') ≠ [])
    (read : digitsValue? 16 0 (written.filter (· != '_')) = some value)
    (small : value < integerLimit) :
    integer? ("0x" ++ String.ofList written) = some value ∧
      integer? (" " ++ ("0x" ++ String.ofList written) ++ " ") = some value := by
  have dark : ∀ c ∈ '0' :: 'x' :: written, isBlank c = false := by
    intro c listed
    rcases List.mem_cons.mp listed with rfl | listed
    · decide
    rcases List.mem_cons.mp listed with rfl | listed
    · decide
    · exact (solid c listed).1
  have unsigned : '+' ∉ written.filter (· != '_') := by
    intro plus
    exact (solid '+' (List.mem_filter.mp plus).1).2 rfl
  have digits : unsignedValue? 16 (written.filter (· != '_')) = some value :=
    unsignedValue?_of_digits unsigned filled read small
  have marked : ('0' :: 'x' :: written).filter (· != '_') =
      '0' :: 'x' :: written.filter (· != '_') := by
    simp
  have bare : ("0x" ++ String.ofList written).toList = '0' :: 'x' :: written := by
    simp
  have between : (" " ++ ("0x" ++ String.ofList written) ++ " ").toList =
      ' ' :: (('0' :: 'x' :: written) ++ [' ']) := by
    simp
  unfold integer?
  rw [bare, between, trimBlanks_of_forall dark, trimBlanks_between dark, marked]
  exact ⟨digits, digits⟩

/-- A hexadecimal constant reads back to the number it was written for. -/
theorem integer?_hexPlain {value : Nat} (small : value < integerLimit) :
    integer? (hexPlain value) = some value := by
  have plain := isPlainDigit_of_mem_hexDigits value
  have kept : (hexDigits value).filter (· != '_') = hexDigits value :=
    List.filter_eq_self.mpr fun c listed => bne_iff_ne.mpr (plain c listed).2.1
  refine (integer?_hex (fun c listed => ⟨(plain c listed).1, (plain c listed).2.2⟩) ?_ ?_ small).1
  · rw [kept]
    exact Nat.toDigits_ne_nil
  · rw [kept]
    exact digitsValue?_hexDigits value

theorem isPlainDigit_of_mem_padDigits (count value : Nat) :
    ∀ c ∈ padDigits count (hexDigits value), IsPlainDigit c := by
  intro c listed
  rcases List.mem_append.mp listed with zero | digit
  · rw [(List.mem_replicate.mp zero).2]
    exact isPlainDigit_digitChar 0 (by decide)
  · exact isPlainDigit_of_mem_hexDigits value c digit

/-- An address reads back to its number, also from between two blanks. -/
theorem integer?_hexAddress {value : Nat} (small : value < integerLimit) (width : Nat) :
    integer? (hexAddress value width) = some value ∧
      integer? (" " ++ hexAddress value width ++ " ") = some value := by
  have plain := isPlainDigit_of_mem_padDigits (digitCount width) value
  have kept := filter_groupDigits fun c listed => (plain c listed).2.1
  unfold hexAddress paddedHex
  refine integer?_hex ?_ ?_ ?_ small
  · intro c listed
    rcases mem_of_mem_groupDigits listed with digit | rfl
    · exact ⟨(plain c digit).1, (plain c digit).2.2⟩
    · decide
  · rw [kept]
    exact List.append_ne_nil_of_right_ne_nil _ Nat.toDigits_ne_nil
  · rw [kept, digitsValue?_padDigits (by decide)]
    exact digitsValue?_hexDigits value

end RegisterBank.Text
