import RegisterBank.Proofs.Document.Digits
import RegisterBank.Proofs.Text.Notations
import RegisterBank.Schema.Expect
import RegisterBank.Verilog.Printer

/-!
# Constants read back

Four printers write a number for people or programs: a constant of a reference
page, an address, an integer of a document and a sized constant of the generated
module.  `Shows` says what a text with grouped digits looks like: the mark in
front, an underscore between groups of four digits counted from the right, and
digits that denote the number.  The reader knows all of these texts but the
sized one, whose width it would take for digits, and reads the number from them.
-/

namespace RegisterBank.Text

/-! ## Groups of four -/

/-- Groups of digits, the leftmost of which may be short. -/
structure AreFours (first : List Char) (groups : List (List Char)) : Prop where
  pos : 0 < first.length
  le : first.length ≤ 4
  full : ∀ group ∈ groups, group.length = 4
  plain : ∀ group ∈ first :: groups, '_' ∉ group

/-- Underscores separate groups of four digits, counted from the right. -/
def InFours (written : List Char) : Prop :=
  ∃ first groups, AreFours first groups ∧ written = ['_'].intercalate (first :: groups)

section Fours

variable {c : Char} {first : List Char} {groups : List (List Char)}

theorem AreFours.alone (digit : c ≠ '_') : AreFours [c] [] where
  pos := Nat.one_pos
  le := Nat.le_add_left 1 3
  full := List.forall_mem_nil _
  plain := by
    intro group listed
    rw [List.mem_singleton.mp listed, List.mem_singleton]
    exact digit.symm

/-- To the left of full groups a new one starts. -/
theorem AreFours.start (fours : AreFours first groups) (full : first.length = 4)
    (digit : c ≠ '_') : AreFours [c] (first :: groups) where
  pos := Nat.one_pos
  le := Nat.le_add_left 1 3
  full := List.forall_mem_cons.mpr ⟨full, fours.full⟩
  plain := List.forall_mem_cons.mpr ⟨(AreFours.alone digit).plain [c] List.mem_cons_self, fours.plain⟩

/-- The leftmost group takes digits as long as it has room. -/
theorem AreFours.cons (fours : AreFours first groups) (room : first.length ≠ 4)
    (digit : c ≠ '_') : AreFours (c :: first) groups where
  pos := Nat.succ_pos _
  le := Nat.succ_le_of_lt (Nat.lt_of_le_of_ne fours.le room)
  full := fours.full
  plain := by
    obtain ⟨leftmost, others⟩ := List.forall_mem_cons.mp fours.plain
    refine List.forall_mem_cons.mpr ⟨?_, others⟩
    rw [List.mem_cons, not_or]
    exact ⟨digit.symm, leftmost⟩

theorem intercalate_cons_cons (separator : List Char) :
    separator.intercalate ((c :: first) :: groups) =
      c :: separator.intercalate (first :: groups) := by
  cases groups with
  | nil => simp
  | cons group groups => simp

end Fours

/-- The digits to the right of a digit decide whether it starts a group: it does
if they are a multiple of four, that is, if the groups there are all full. -/
theorem exists_areFours {digits : List Char} (filled : digits ≠ [])
    (plain : ∀ c ∈ digits, c ≠ '_') :
    ∃ first groups, AreFours first groups ∧
      digits.length = first.length + 4 * groups.length ∧
      groupDigits digits = ['_'].intercalate (first :: groups) := by
  -- The digits behind the first one are in groups already, and it starts or joins one.
  induction digits with
  | nil => exact absurd rfl filled
  | cons c rest ih =>
    obtain ⟨own, others⟩ := List.forall_mem_cons.mp plain
    by_cases last : rest = []
    · subst last
      exact ⟨[c], [], .alone own, rfl, by simp [groupDigits]⟩
    obtain ⟨first, groups, fours, count, written⟩ := ih last others
    have least := fours.pos
    have most := fours.le
    unfold groupDigits
    rw [written, List.length_cons]
    by_cases border : first.length = 4
    · have full : rest.length % 4 = 0 := by omega
      refine ⟨[c], first :: groups, fours.start border own, ?_, ?_⟩
      · rw [List.length_singleton, List.length_cons]
        omega
      · rw [if_pos ⟨full, last⟩]
        simp
    · have short : rest.length % 4 ≠ 0 := by omega
      refine ⟨c :: first, groups, fours.cons border own, ?_, ?_⟩
      · rw [List.length_cons]
        omega
      · rw [if_neg fun both => short both.1, intercalate_cons_cons]

theorem inFours_groupDigits {digits : List Char} (filled : digits ≠ [])
    (plain : ∀ c ∈ digits, c ≠ '_') : InFours (groupDigits digits) := by
  obtain ⟨first, groups, fours, -, written⟩ := exists_areFours filled plain
  exact ⟨first, groups, fours, written⟩

/-! ## Texts that show a number -/

/-- Behind a mark, grouped digits of a base denote a number. -/
structure Shows (text mark : String) (base value : Nat) (written : List Char) : Prop where
  text_eq : text = mark ++ String.ofList written
  inFours : InFours written
  denotes : Denotes base (written.filter (· != '_')) value

section Shows

variable {base value : Nat} {written : List Char}

theorem shows_groupDigits (known : base ≤ 16) (mark : String) {digits : List Char}
    (filled : digits ≠ []) (plain : ∀ c ∈ digits, c ≠ '_')
    (read : digitsValue? base 0 digits = some value) :
    Shows (mark ++ String.ofList (groupDigits digits)) mark base value (groupDigits digits) := by
  refine ⟨rfl, inFours_groupDigits filled plain, ?_⟩
  rw [filter_groupDigits plain]
  exact (denotes_iff known).mpr ⟨filled, read⟩

theorem isBlank_toUpper : ∀ digit < 16, isBlank digit.digitChar.toUpper = false := by
  decide

theorem Denotes.solid (known : base ≤ 16)
    (denotes : Denotes base (written.filter (· != '_')) value) :
    ∀ c ∈ written, isBlank c = false := by
  intro c listed
  by_cases underscore : c = '_'
  · rw [underscore]
    decide
  · have kept : c ∈ written.filter (· != '_') :=
      List.mem_filter.mpr ⟨listed, bne_iff_ne.mpr underscore⟩
    obtain ⟨digit, below, rfl | rfl⟩ := denotes.exists_isDigit c kept
    · exact (isPlainDigit_digitChar digit (by omega)).1
    · exact isBlank_toUpper digit (by omega)

/-- A text without blanks is read as the number that it writes without its
underscores. -/
theorem integer?_of_written {text : String} (solid : ∀ c ∈ text.toList, isBlank c = false)
    (written : Written [] (text.toList.filter (· != '_')) value) (small : value < integerLimit) :
    integer? text = some value :=
  integer?_eq_some_iff.mpr
    ⟨small, .inl ⟨text.toList, trims_iff.mpr (trimBlanks_of_forall solid), written⟩⟩

theorem Shows.integer?_hexadecimal {text : String} (showing : Shows text "0x" 16 value written)
    (small : value < integerLimit) : integer? text = some value := by
  have chars : text.toList = '0' :: 'x' :: written := by
    rw [showing.text_eq]
    simp
  have digits := showing.denotes
  refine integer?_of_written ?_ ?_ small
  · rw [chars]
    refine List.forall_mem_cons.mpr ⟨by decide, List.forall_mem_cons.mpr ⟨by decide, ?_⟩⟩
    exact digits.solid (by decide)
  · rw [chars, List.filter_cons_of_pos (by decide), List.filter_cons_of_pos (by decide)]
    exact .hexadecimal List.mem_cons_self digits

/-- Decimal digits are read as they are written. -/
theorem integer?_toString (small : value < integerLimit) :
    integer? (toString value) = some value := by
  have chars := Document.toList_toString value
  have digits := Document.isDigit_of_mem_decimal value
  have kept : (Document.decimal value).filter (· != '_') = Document.decimal value := by
    refine List.filter_eq_self.mpr fun c listed => bne_iff_ne.mpr ?_
    exact Document.ne_of_isDigit (digits c listed) (by decide)
  have denotes : Denotes 10 (Document.decimal value) value :=
    (denotes_iff (by decide)).mpr
      ⟨Document.decimal_ne_nil value, digitsValue?_toDigits (by decide) (by decide) value⟩
  refine integer?_of_written ?_ ?_ small
  · rw [chars]
    rw [← kept] at denotes
    exact denotes.solid (by decide)
  · rw [chars, kept]
    exact .decimal denotes

end Shows

/-! ## Padded digits -/

section Padded

variable (width value : Nat)

/-- The digits that a width needs are enough for the numbers of that width. -/
theorem length_padDigits (fits : value < 2 ^ width) :
    (padDigits (digitCount width) (hexDigits value)).length = digitCount width := by
  have positive : 0 < digitCount width := Nat.lt_of_lt_of_le Nat.one_pos (Nat.le_max_left 1 _)
  have enough : width ≤ 4 * digitCount width := by
    unfold digitCount
    omega
  have bound : value < 16 ^ digitCount width :=
    calc value < 2 ^ width := fits
      _ ≤ 2 ^ (4 * digitCount width) := Nat.pow_le_pow_right (by decide) enough
      _ = 16 ^ digitCount width := Nat.pow_mul 2 4 (digitCount width)
  have room : (hexDigits value).length ≤ digitCount width :=
    (Nat.length_toDigits_le_iff (by decide) positive).mpr bound
  unfold padDigits
  rw [List.length_append, List.length_replicate]
  omega

theorem plain_padDigits : ∀ c ∈ padDigits (digitCount width) (hexDigits value), c ≠ '_' :=
  fun c listed => (isPlainDigit_of_mem_padDigits (digitCount width) value c listed).2.1

/-- Padded digits show their number behind any mark. -/
theorem shows_paddedHex (mark : String) : ∃ written,
    Shows (mark ++ paddedHex width value) mark 16 value written ∧
      (value < 2 ^ width → (written.filter (· != '_')).length = max 1 ((width + 3) / 4)) := by
  have plain := plain_padDigits width value
  have filled : padDigits (digitCount width) (hexDigits value) ≠ [] :=
    List.append_ne_nil_of_right_ne_nil _ Nat.toDigits_ne_nil
  refine ⟨_, shows_groupDigits (Nat.le_refl 16) mark filled plain ?_, ?_⟩
  · rw [digitsValue?_padDigits (by decide)]
    exact digitsValue?_hexDigits value
  · intro fits
    rw [filter_groupDigits plain]
    exact length_padDigits width value fits

end Padded

/-! ## Constants of reference pages -/

theorem shows_hexConstant_large {value : Nat} (large : 9 < value) :
    ∃ written, Shows (hexConstant value) "0x" 16 value written := by
  unfold hexConstant
  rw [if_pos large]
  exact ⟨_, shows_groupDigits (Nat.le_refl 16) "0x" Nat.toDigits_ne_nil
    (fun c listed => (isPlainDigit_of_mem_hexDigits value c listed).2.1)
    (digitsValue?_hexDigits value)⟩

/-- Up to nine, the one decimal digit is a group of its own. -/
theorem shows_hexConstant_small {value : Nat} (small : value ≤ 9) :
    ∃ written, Shows (hexConstant value) "" 10 value written := by
  have digit : value < 10 := Nat.lt_succ_of_le small
  have alone : Document.decimal value = [value.digitChar] := Nat.toDigits_of_lt_base digit
  have text : toString value = "" ++ String.ofList (groupDigits [value.digitChar]) := by
    rw [← String.toList_inj, Document.toList_toString, alone]
    simp [groupDigits]
  unfold hexConstant
  rw [if_neg (Nat.not_lt.mpr small), text]
  refine ⟨_, shows_groupDigits (by decide) "" (List.cons_ne_nil _ _) ?_ ?_⟩
  · rw [List.forall_mem_singleton]
    exact (isPlainDigit_digitChar value (by omega)).2.1
  · rw [← alone]
    exact digitsValue?_toDigits (by decide) (by decide) value

theorem integer?_hexConstant {value : Nat} (small : value < integerLimit) :
    integer? (hexConstant value) = some value := by
  by_cases large : 9 < value
  · obtain ⟨written, showing⟩ := shows_hexConstant_large large
    exact showing.integer?_hexadecimal small
  · unfold hexConstant
    rw [if_neg large]
    exact integer?_toString small

/-! ## All texts of a number -/

/-- The texts that are written for a number. -/
structure ReadsBack (value : Nat) : Prop where
  constant : integer? (hexConstant value) = some value
  decimal : value ≤ 9 → ∃ written, Shows (hexConstant value) "" 10 value written
  hexadecimal : 9 < value → ∃ written, Shows (hexConstant value) "0x" 16 value written
  /-- Documents hold a signed 64-bit integer as a number, which is written in decimal. -/
  number : value < 2 ^ 63 →
    Schema.intTree value = .int value ∧ integer? (toString value) = some value
  /-- Documents hold a larger integer as a text. -/
  text : 2 ^ 63 ≤ value →
    Schema.intTree value = .text (hexPlain value) ∧ integer? (hexPlain value) = some value
  address : ∀ width, integer? (hexAddress value width) = some value ∧
    ∃ written, Shows (hexAddress value width) "0x" 16 value written
  /-- A number that the width holds has as many digits as the width needs. -/
  sized : ∀ width, ∃ written,
    Shows (Verilog.sizedHex width value) (toString width ++ "'h") 16 value written ∧
      (value < 2 ^ width → (written.filter (· != '_')).length = max 1 ((width + 3) / 4))

/-- **Every text of a number reads back.**  Constants, addresses and the integers
of documents are read as the number that they were written for, and behind their
marks the digits of all constants denote it, in groups of four. -/
theorem constants_read_back {value : Nat} (small : value < 2 ^ 64) : ReadsBack value where
  constant := integer?_hexConstant small
  decimal := shows_hexConstant_small
  hexadecimal := shows_hexConstant_large
  number short := ⟨if_pos short, integer?_toString small⟩
  text long := ⟨if_neg (Nat.not_lt.mpr long), integer?_hexPlain small⟩
  address width := by
    obtain ⟨written, showing, -⟩ := shows_paddedHex width value "0x"
    exact ⟨showing.integer?_hexadecimal small, written, showing⟩
  sized width := shows_paddedHex width value (toString width ++ "'h")

/-- The first number that documents write as a text. -/
theorem constants_read_back_signed : 2 ^ 63 < 2 ^ 64 ∧ ReadsBack (2 ^ 63) := by
  have small : 2 ^ 63 < 2 ^ 64 := by decide
  exact ⟨small, constants_read_back small⟩

example : Verilog.sizedHex 17 0x2a = "17'h0_002a" := by
  decide

end RegisterBank.Text
