import Mathlib.Data.List.DropRight
import Mathlib.Data.List.Forall2
import Mathlib.Data.Nat.Digits.Defs
import RegisterBank.Proofs.Text.Integers

/-!
# Notations of integers

Which texts are read, and as which integers, said without the steps of the
reader.  `Trims` is what blanks around a text leave of it, `Denotes` the number
that a run of digits writes, and `Written` lists the notations: decimal,
hexadecimal and binary.

The reader takes a little more than it is meant to.  What parses its digits is
made for signed notation too, so it lets a plus sign through in front of them,
behind the mark of the base (`integer?_eq_some_iff`).  Without a plus sign in
the text the notations are all there is.
-/

namespace RegisterBank.Text

/-! ## Blanks around a text -/

/-- A text stands between blanks, with none at its own ends. -/
structure Trims (text middle : List Char) : Prop where
  around : ∃ front back, text = front ++ middle ++ back ∧
    (∀ c ∈ front, isBlank c = true) ∧ ∀ c ∈ back, isBlank c = true
  head : ∀ c ∈ middle.head?, isBlank c = false
  last : ∀ c ∈ middle.getLast?, isBlank c = false

theorem dropWhile_blanks {front rest : List Char} (blank : ∀ c ∈ front, isBlank c = true)
    (dark : ∀ c ∈ rest.head?, isBlank c = false) : (front ++ rest).dropWhile isBlank = rest := by
  rw [List.dropWhile_append_of_pos blank]
  cases rest with
  | nil => rfl
  | cons c rest =>
    have first := dark c rfl
    rw [List.dropWhile_cons_of_neg (by rw [first]; exact Bool.false_ne_true)]

/-- Trimming has one result: nothing that stands between blanks is lost. -/
theorem Trims.eq {text middle : List Char} (trims : Trims text middle) :
    trimBlanks text = middle := by
  obtain ⟨front, back, rfl, before, behind⟩ := trims.around
  have reversed : ∀ c ∈ back.reverse, isBlank c = true :=
    fun c listed => behind c (List.mem_reverse.mp listed)
  have last : ∀ c ∈ middle.reverse.head?, isBlank c = false := by
    rw [List.head?_reverse]
    exact trims.last
  unfold trimBlanks
  rw [List.append_assoc]
  cases middle with
  | nil =>
    -- All of the text is blank, and either end takes it away.
    have all : ∀ c ∈ front ++ back, isBlank c = true := List.forall_mem_append.mpr ⟨before, behind⟩
    rw [List.nil_append, ← List.append_nil (front ++ back), dropWhile_blanks all (by simp)]
    rfl
  | cons c rest =>
    have ahead : (front ++ (c :: rest ++ back)).dropWhile isBlank = c :: rest ++ back :=
      dropWhile_blanks before trims.head
    rw [ahead, List.reverse_append, dropWhile_blanks reversed last, List.reverse_reverse]

theorem trims_trimBlanks (text : List Char) : Trims text (trimBlanks text) := by
  have front : text.takeWhile isBlank ++ text.dropWhile isBlank = text :=
    List.takeWhile_append_dropWhile
  have back : trimBlanks text ++ (text.dropWhile isBlank).rtakeWhile isBlank =
      text.dropWhile isBlank := List.rdropWhile_append_rtakeWhile
  refine ⟨⟨text.takeWhile isBlank, (text.dropWhile isBlank).rtakeWhile isBlank, ?_, ?_, ?_⟩, ?_, ?_⟩
  · rw [List.append_assoc, back, front]
  · intro c listed
    exact List.mem_takeWhile_imp listed
  · intro c listed
    exact List.mem_rtakeWhile_imp listed
  · -- The first character left is the first that blanks in front did not take.
    intro c first
    obtain ⟨rest, split⟩ := List.head?_eq_some_iff.mp first
    have dark := List.head?_dropWhile_not isBlank text
    rw [← back, split] at dark
    exact dark
  · intro c final
    have filled : trimBlanks text ≠ [] := by
      intro empty
      rw [empty] at final
      cases final
    have dark := List.rdropWhile_last_not isBlank (text.dropWhile isBlank) filled
    rw [Option.mem_def, List.getLast?_eq_some_getLast filled] at final
    cases final
    exact Bool.eq_false_of_not_eq_true dark

/-- Trimming takes the blanks off both ends and nothing else. -/
theorem trims_iff {text middle : List Char} : Trims text middle ↔ trimBlanks text = middle := by
  constructor
  · exact Trims.eq
  · intro trimmed
    rw [← trimmed]
    exact trims_trimBlanks text

/-! ## Digits -/

/-- A character is a digit of a base; letters may be small or capitals. -/
def IsDigit (base : Nat) (c : Char) (digit : Nat) : Prop :=
  digit < base ∧ (c = digit.digitChar ∨ c = digit.digitChar.toUpper)

/-- The number that digits write, the most significant first.  There is one
digit at least. -/
def Denotes (base : Nat) (written : List Char) (value : Nat) : Prop :=
  ∃ digits, digits ≠ [] ∧ List.Forall₂ (IsDigit base) written digits ∧
    Nat.ofDigits base digits.reverse = value

/-- Capital digits have the values of small ones. -/
theorem digitValue?_toUpper : ∀ base ≤ 16, ∀ digit < base,
    digitValue? base digit.digitChar.toUpper = some digit := by
  decide

/-- The characters of a range are given by how far they are from its first. -/
theorem eq_ofNat_add {c : Char} {first : Nat} (above : first ≤ c.toNat) :
    c = Char.ofNat (first + (c.toNat - first)) := by
  rw [Nat.add_sub_cancel' above, Char.ofNat_toNat]

theorem eq_digitChar_of_isDigit {c : Char} (decimal : c.isDigit = true) :
    c.toNat - 48 < 10 ∧ c = (c.toNat - 48).digitChar := by
  have range := isDigit_iff.mp decimal
  have small : c.toNat - 48 < 10 := by omega
  have same : ∀ digit < 10, Char.ofNat (48 + digit) = digit.digitChar := by decide
  exact ⟨small, (eq_ofNat_add range.1).trans (same _ small)⟩

/-- The letters from a to f are the digits from ten on. -/
theorem eq_digitChar_of_small {c : Char} (small : 'a' ≤ c ∧ c ≤ 'f') :
    c = (c.toNat - 97 + 10).digitChar := by
  have range : 97 ≤ c.toNat ∧ c.toNat ≤ 102 := small
  have same : ∀ letter < 6, Char.ofNat (97 + letter) = (letter + 10).digitChar := by decide
  exact (eq_ofNat_add range.1).trans (same _ (by omega))

theorem eq_toUpper_of_capital {c : Char} (capital : 'A' ≤ c ∧ c ≤ 'F') :
    c = (c.toNat - 65 + 10).digitChar.toUpper := by
  have range : 65 ≤ c.toNat ∧ c.toNat ≤ 70 := capital
  have same : ∀ letter < 6, Char.ofNat (65 + letter) = (letter + 10).digitChar.toUpper := by decide
  exact (eq_ofNat_add range.1).trans (same _ (by omega))

section Digits

variable {base : Nat} (known : base ≤ 16)

include known

/-- A character has a value as a digit exactly where it is a digit of the
base. -/
theorem digitValue?_eq_some_iff {c : Char} {digit : Nat} :
    digitValue? base c = some digit ↔ IsDigit base c digit := by
  constructor
  · intro read
    unfold digitValue? at read
    simp only [Option.ite_none_right_eq_some, Option.some.injEq] at read
    obtain ⟨below, rfl⟩ := read
    refine ⟨below, ?_⟩
    by_cases decimal : c.isDigit = true
    · rw [if_pos decimal]
      exact .inl (eq_digitChar_of_isDigit decimal).2
    by_cases small : 'a' ≤ c ∧ c ≤ 'f'
    · rw [if_neg decimal, if_pos small]
      exact .inl (eq_digitChar_of_small small)
    by_cases capital : 'A' ≤ c ∧ c ≤ 'F'
    · rw [if_neg decimal, if_neg small, if_pos capital]
      exact .inr (eq_toUpper_of_capital capital)
    · rw [if_neg decimal, if_neg small, if_neg capital] at below
      exact absurd below (Nat.lt_irrefl base)
  · rintro ⟨below, rfl | rfl⟩
    · exact digitValue?_digitChar base known digit below
    · exact digitValue?_toUpper base known digit below

/-- A run of digits adds its own number to what stands before it. -/
theorem digitsValue?_eq_some_iff {start value : Nat} {written : List Char} :
    digitsValue? base start written = some value ↔
      ∃ digits, List.Forall₂ (IsDigit base) written digits ∧
        value = start * base ^ written.length + Nat.ofDigits base digits.reverse := by
  -- On the text; each digit read shifts `start` by the base.
  induction written generalizing start with
  | nil =>
    unfold digitsValue?
    simp only [List.forall₂_nil_left_iff, exists_eq_left, List.reverse_nil, Nat.ofDigits_nil,
      List.length_nil, Nat.pow_zero, Nat.mul_one, Nat.add_zero, Option.some.injEq]
    exact eq_comm
  | cons c rest ih =>
    unfold digitsValue?
    constructor
    · intro read
      cases first : digitValue? base c with
      | none =>
        rw [first] at read
        cases read
      | some digit =>
        rw [first] at read
        obtain ⟨digits, each, rfl⟩ := ih.mp read
        refine ⟨digit :: digits, .cons ((digitValue?_eq_some_iff known).mp first) each, ?_⟩
        rw [Nat.ofDigits_reverse_cons, List.length_cons, ← each.length_eq]
        ring
    · rintro ⟨digits, each, rfl⟩
      obtain ⟨digit, digits, first, others, rfl⟩ := List.forall₂_cons_left_iff.mp each
      rw [(digitValue?_eq_some_iff known).mpr first]
      refine ih.mpr ⟨digits, others, ?_⟩
      rw [Nat.ofDigits_reverse_cons, List.length_cons, ← others.length_eq]
      ring

/-- Digits denote what reading them from left to right adds up to. -/
theorem denotes_iff {written : List Char} {value : Nat} :
    Denotes base written value ↔ written ≠ [] ∧ digitsValue? base 0 written = some value := by
  rw [digitsValue?_eq_some_iff known]
  unfold Denotes
  constructor
  · rintro ⟨digits, filled, each, rfl⟩
    refine ⟨?_, digits, each, by rw [Nat.zero_mul, Nat.zero_add]⟩
    rintro rfl
    exact filled (List.forall₂_nil_left_iff.mp each)
  · rintro ⟨filled, digits, each, rfl⟩
    refine ⟨digits, ?_, each, by rw [Nat.zero_mul, Nat.zero_add]⟩
    rintro rfl
    exact filled (List.forall₂_nil_right_iff.mp each)

end Digits

theorem Denotes.exists_isDigit {base value : Nat} {written : List Char}
    (denotes : Denotes base written value) : ∀ c ∈ written, ∃ digit, IsDigit base c digit := by
  obtain ⟨digits, -, each, -⟩ := denotes
  induction each with
  | nil => exact List.forall_mem_nil _
  | cons first _ ih => exact List.forall_mem_cons.mpr ⟨⟨_, first⟩, ih⟩

/-! ## The three notations -/

/-- The notations of a number, with a sign in front of its digits: decimal, and
hexadecimal and binary behind the mark of their base. -/
inductive Written (sign : List Char) : List Char → Nat → Prop
  | decimal {digits : List Char} {value : Nat} : Denotes 10 digits value →
    Written sign (sign ++ digits) value
  | hexadecimal {mark : Char} {digits : List Char} {value : Nat} : mark ∈ ['x', 'X'] →
    Denotes 16 digits value → Written sign ('0' :: mark :: (sign ++ digits)) value
  | binary {mark : Char} {digits : List Char} {value : Nat} : mark ∈ ['b', 'B'] →
    Denotes 2 digits value → Written sign ('0' :: mark :: (sign ++ digits)) value

/-- Neither a sign nor the mark of a base is a digit. -/
theorem Denotes.notMem {base value : Nat} {written : List Char}
    (denotes : Denotes base written value) {c : Char}
    (other : ∀ digit < base, c ≠ digit.digitChar ∧ c ≠ digit.digitChar.toUpper) :
    c ∉ written := by
  intro listed
  obtain ⟨digit, below, is⟩ := denotes.exists_isDigit c listed
  exact is.elim (other digit below).1 (other digit below).2

/-- A plus sign is no digit. -/
theorem plus_ne : ∀ base ≤ 16, ∀ digit < base,
    '+' ≠ digit.digitChar ∧ '+' ≠ digit.digitChar.toUpper := by
  decide

theorem mark_ne {mark : Char} (is : mark ∈ ['x', 'X', 'b', 'B']) : ∀ digit < 10,
    mark ≠ digit.digitChar ∧ mark ≠ digit.digitChar.toUpper := by
  simp only [List.mem_cons, List.not_mem_nil, or_false] at is
  rcases is with rfl | rfl | rfl | rfl <;> decide

theorem plus_notMem_marks : '+' ∉ ['x', 'X', 'b', 'B'] := by
  decide

section Signs

variable {base value : Nat} (known : base ≤ 16)

include known

/-- The parser takes the values below 2^64. -/
theorem bounded_eq_some_iff {digits : List Char} :
    (if digits.isEmpty then none
      else match digitsValue? base 0 digits with
        | some value => if value < integerLimit then some value else none
        | none => none) = some value ↔ value < integerLimit ∧ Denotes base digits value := by
  rw [denotes_iff known, Option.ite_none_left_eq_some, List.isEmpty_iff]
  cases digitsValue? base 0 digits with
  | none => simp
  | some read =>
    rw [Option.ite_none_right_eq_some]
    constructor
    · rintro ⟨filled, small, same⟩
      cases same
      exact ⟨small, filled, rfl⟩
    · rintro ⟨small, filled, same⟩
      cases same
      exact ⟨filled, small, rfl⟩

/-- The reader of digits lets one plus sign through. -/
theorem unsignedValue?_eq_some_iff {written : List Char} :
    unsignedValue? base written = some value ↔ value < integerLimit ∧
      (Denotes base written value ∨ ∃ digits, written = '+' :: digits ∧ Denotes base digits value) := by
  unfold unsignedValue?
  refine (bounded_eq_some_iff known).trans ?_
  split
  · rename_i rest
    constructor
    · rintro ⟨small, denotes⟩
      exact ⟨small, .inr ⟨rest, rfl, denotes⟩⟩
    · rintro ⟨small, denotes | ⟨digits, same, denotes⟩⟩
      · exact absurd List.mem_cons_self (denotes.notMem (plus_ne base known))
      · cases same
        exact ⟨small, denotes⟩
  · rename_i unsigned
    constructor
    · rintro ⟨small, denotes⟩
      exact ⟨small, .inl denotes⟩
    · rintro ⟨small, denotes | ⟨digits, same, -⟩⟩
      · exact ⟨small, denotes⟩
      · exact absurd same (unsigned digits)

end Signs

/-! ## The base of a text -/

/-- What is behind the mark of a base, or the whole text if it has none. -/
theorem splitBase_cases (text : List Char) :
    (∃ mark ∈ ['x', 'X'], ∃ rest, text = '0' :: mark :: rest ∧ splitBase text = (16, rest)) ∨
      (∃ mark ∈ ['b', 'B'], ∃ rest, text = '0' :: mark :: rest ∧ splitBase text = (2, rest)) ∨
      splitBase text = (10, text) := by
  unfold splitBase
  split
  · exact .inl ⟨'x', by decide, _, rfl, rfl⟩
  · exact .inl ⟨'X', by decide, _, rfl, rfl⟩
  · exact .inr (.inl ⟨'b', by decide, _, rfl, rfl⟩)
  · exact .inr (.inl ⟨'B', by decide, _, rfl, rfl⟩)
  · exact .inr (.inr rfl)

/-- A text without any mark is decimal. -/
theorem splitBase_of_notMem {text : List Char}
    (unmarked : ∀ mark ∈ ['x', 'X', 'b', 'B'], mark ∉ text) : splitBase text = (10, text) := by
  rcases splitBase_cases text with ⟨mark, is, rest, rfl, -⟩ | ⟨mark, is, rest, rfl, -⟩ | plain
  · have among : mark ∈ ['x', 'X'] ++ ['b', 'B'] := List.mem_append_left _ is
    exact absurd (List.mem_cons_of_mem _ List.mem_cons_self) (unmarked mark among)
  · have among : mark ∈ ['x', 'X'] ++ ['b', 'B'] := List.mem_append_right _ is
    exact absurd (List.mem_cons_of_mem _ List.mem_cons_self) (unmarked mark among)
  · exact plain

/-- A prefix of either case chooses base 16. -/
theorem splitBase_hexadecimal {mark : Char} (is : mark ∈ ['x', 'X']) (rest : List Char) :
    splitBase ('0' :: mark :: rest) = (16, rest) := by
  simp only [List.mem_cons, List.not_mem_nil, or_false] at is
  rcases is with rfl | rfl
  · rfl
  · rfl

theorem splitBase_binary {mark : Char} (is : mark ∈ ['b', 'B']) (rest : List Char) :
    splitBase ('0' :: mark :: rest) = (2, rest) := by
  simp only [List.mem_cons, List.not_mem_nil, or_false] at is
  rcases is with rfl | rfl
  · rfl
  · rfl

/-- What is behind the mark of a text is read, in the base of the mark. -/
def marked? (text : List Char) : Option Nat := unsignedValue? (splitBase text).1 (splitBase text).2

section Marked

variable {text : List Char} {value : Nat}

/-- Behind the prefix there may be a plus sign. -/
theorem marked?_of_split {base : Nat} {rest : List Char} (split : splitBase text = (base, rest))
    (known : base ≤ 16) : marked? text = some value ↔ value < integerLimit ∧
      (Denotes base rest value ∨ ∃ digits, rest = '+' :: digits ∧ Denotes base digits value) := by
  unfold marked?
  rw [split]
  exact unsignedValue?_eq_some_iff known

/-- What is read is written in one of the notations, with a plus sign or
without. -/
theorem written_of_marked? (read : marked? text = some value) :
    value < integerLimit ∧ (Written [] text value ∨ Written ['+'] text value) := by
  rcases splitBase_cases text with ⟨mark, is, rest, rfl, split⟩ | ⟨mark, is, rest, rfl, split⟩ | split
  · obtain ⟨small, denotes | ⟨digits, rfl, denotes⟩⟩ := (marked?_of_split split (by decide)).mp read
    · exact ⟨small, .inl (.hexadecimal is denotes)⟩
    · exact ⟨small, .inr (.hexadecimal is denotes)⟩
  · obtain ⟨small, denotes | ⟨digits, rfl, denotes⟩⟩ := (marked?_of_split split (by decide)).mp read
    · exact ⟨small, .inl (.binary is denotes)⟩
    · exact ⟨small, .inr (.binary is denotes)⟩
  · obtain ⟨small, denotes | ⟨digits, rfl, denotes⟩⟩ := (marked?_of_split split (by decide)).mp read
    · exact ⟨small, .inl (.decimal denotes)⟩
    · exact ⟨small, .inr (.decimal denotes)⟩

/-- Each sign that the reader of digits lets through is let through behind every
mark. -/
theorem marked?_of_written {sign : List Char} (passed : sign = [] ∨ sign = ['+'])
    (written : Written sign text value) (small : value < integerLimit) :
    marked? text = some value := by
  have either {base : Nat} {digits : List Char} (denotes : Denotes base digits value) :
      Denotes base (sign ++ digits) value ∨
        ∃ behind, sign ++ digits = '+' :: behind ∧ Denotes base behind value := by
    rcases passed with rfl | rfl
    · exact .inl denotes
    · exact .inr ⟨digits, rfl, denotes⟩
  cases written with
  | hexadecimal is denotes =>
    exact (marked?_of_split (splitBase_hexadecimal is _) (by decide)).mpr ⟨small, either denotes⟩
  | binary is denotes =>
    exact (marked?_of_split (splitBase_binary is _) (by decide)).mpr ⟨small, either denotes⟩
  | decimal denotes =>
    refine (marked?_of_split (splitBase_of_notMem ?_) (by decide)).mpr ⟨small, either denotes⟩
    intro mark is
    rw [List.mem_append, not_or]
    refine ⟨?_, denotes.notMem (mark_ne is)⟩
    rcases passed with rfl | rfl
    · exact List.not_mem_nil
    · rw [List.mem_singleton]
      rintro rfl
      exact plus_notMem_marks is

end Marked

/-! ## Texts -/

/-- A text writes a number with a sign, apart from blanks around it and
underscores in it. -/
def Notes (sign : List Char) (text : String) (value : Nat) : Prop :=
  ∃ middle, Trims text.toList middle ∧ Written sign (middle.filter (· != '_')) value

section Notes

variable {text : String} {value : Nat}

theorem integer?_eq_marked? (text : String) :
    integer? text = marked? ((trimBlanks text.toList).filter (· != '_')) :=
  rfl

/-- Blanks at the ends and underscores anywhere do not count. -/
theorem notes_iff {sign : List Char} :
    Notes sign text value ↔ Written sign ((trimBlanks text.toList).filter (· != '_')) value := by
  unfold Notes
  simp only [trims_iff, exists_eq_left']

/-- What is read exactly: the notations, and these with a plus sign in front of
the digits. -/
theorem integer?_eq_some_iff : integer? text = some value ↔
    value < integerLimit ∧ (Notes [] text value ∨ Notes ['+'] text value) := by
  rw [integer?_eq_marked?, notes_iff, notes_iff]
  constructor
  · exact written_of_marked?
  · rintro ⟨small, written | written⟩
    · exact marked?_of_written (.inl rfl) written small
    · exact marked?_of_written (.inr rfl) written small

theorem plus_mem_of_notes (notes : Notes ['+'] text value) : '+' ∈ text.toList := by
  obtain ⟨middle, trims, written⟩ := notes
  obtain ⟨front, back, same, -, -⟩ := trims.around
  have kept : '+' ∈ middle.filter (· != '_') := by
    generalize middle.filter (· != '_') = kept at written
    cases written with
    | decimal _ => exact List.mem_cons_self
    | hexadecimal _ _ => exact List.mem_cons_of_mem _ (List.mem_cons_of_mem _ List.mem_cons_self)
    | binary _ _ => exact List.mem_cons_of_mem _ (List.mem_cons_of_mem _ List.mem_cons_self)
  rw [same]
  exact List.mem_append_left _ (List.mem_append_right _ (List.mem_filter.mp kept).1)

/-- None of the documented notations has a plus sign. -/
theorem plus_notMem_of_written {written : List Char} (unsigned : Written [] written value) :
    '+' ∉ written := by
  have marked {mark : Char} {digits : List Char} (is : mark ∈ ['x', 'X', 'b', 'B'])
      (free : '+' ∉ digits) : '+' ∉ '0' :: mark :: ([] ++ digits) := by
    have other : '+' ≠ mark := by
      rintro rfl
      exact plus_notMem_marks is
    rw [List.mem_cons, List.mem_cons, not_or, not_or]
    exact ⟨by decide, other, free⟩
  cases unsigned with
  | decimal denotes => exact denotes.notMem (plus_ne 10 (by decide))
  | hexadecimal is denotes =>
    exact marked (List.mem_append_left ['b', 'B'] is) (denotes.notMem (plus_ne 16 (by decide)))
  | binary is denotes =>
    exact marked (List.mem_append_right ['x', 'X'] is) (denotes.notMem (plus_ne 2 (by decide)))

end Notes

/-- **The notations are read, and a plus sign besides.**  A text is read as a
number exactly if it writes that number in one of the notations, with or without
a plus sign in front of the digits, and 64 bits hold the number.  So the
notations are exactly what is read of the texts without a plus sign. -/
theorem read_iff_notes (text : String) (value : Nat) :
    (integer? text = some value ↔
      value < 2 ^ 64 ∧ (Notes [] text value ∨ Notes ['+'] text value)) ∧
    ('+' ∉ text.toList → (integer? text = some value ↔ value < 2 ^ 64 ∧ Notes [] text value)) := by
  refine ⟨integer?_eq_some_iff, fun unsigned => ?_⟩
  constructor
  · intro read
    obtain ⟨small, notes | signed⟩ := integer?_eq_some_iff.mp read
    · exact ⟨small, notes⟩
    · exact absurd (plus_mem_of_notes signed) unsigned
  · rintro ⟨small, notes⟩
    exact integer?_eq_some_iff.mpr ⟨small, .inl notes⟩

/-- Blanks, capital prefix and digits, and an underscore in one text. -/
theorem read_iff_notes_grouped :
    '+' ∉ " 0XFF_ff\n".toList ∧ integer? " 0XFF_ff\n" = some 65535 ∧
      65535 < 2 ^ 64 ∧ Notes [] " 0XFF_ff\n" 65535 := by
  have unsigned : '+' ∉ " 0XFF_ff\n".toList := by decide
  have read : integer? " 0XFF_ff\n" = some 65535 := by decide
  exact ⟨unsigned, read, ((read_iff_notes " 0XFF_ff\n" 65535).2 unsigned).mp read⟩

/-- A plus sign is read in front of decimal digits and behind the mark of a
base, though no notation has one. -/
theorem reads_plus_sign :
    (integer? "+16" = some 16 ∧ ∀ value, ¬ Notes [] "+16" value) ∧
      integer? "0x+10" = some 16 ∧ ∀ value, ¬ Notes [] "0x+10" value := by
  refine ⟨⟨by decide, ?_⟩, by decide, ?_⟩
  · intro value notes
    exact plus_notMem_of_written (notes_iff.mp notes) (by decide)
  · intro value notes
    exact plus_notMem_of_written (notes_iff.mp notes) (by decide)

end RegisterBank.Text
