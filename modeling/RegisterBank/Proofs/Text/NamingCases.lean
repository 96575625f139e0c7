import Mathlib.Data.List.Chain
import RegisterBank.Proofs.Text.Identifiers
import RegisterBank.Proofs.Text.Integers

/-!
# Names in their normal form

`IsSnakeCase` says what a name in snake case looks like, without the pass that
brings it there.  The words of a name carry one invariant through that pass:
what follows an underscore starts with another character, whether the underscore
stands for separators or for the start of a word.  So no underscore is ever
doubled and the last pass finds nothing to halve.  A name that is in normal form
already comes out as it went in, and with that every case convention is
idempotent.
-/

namespace RegisterBank.Text

/-! ## Characters -/

section Character

variable {c : Char}

theorem isSeparator_iff : isSeparator c = true ↔
    c.toNat = 0x20 ∨ c.toNat = 0x09 ∨ c.toNat = 0x0a ∨ c.toNat = 0x0c ∨ c.toNat = 0x0d ∨
      (0x21 ≤ c.toNat ∧ c.toNat ≤ 0x2f) ∨ (0x3a ≤ c.toNat ∧ c.toNat ≤ 0x40) ∨
      (0x5b ≤ c.toNat ∧ c.toNat ≤ 0x60) ∨ (0x7b ≤ c.toNat ∧ c.toNat ≤ 0x7e) := by
  unfold isSeparator
  simp only [Bool.or_eq_true, Bool.and_eq_true, beq_iff_eq, decide_eq_true_eq, or_assoc,
    ← Char.toNat_inj]
  rfl

/-- Changing case makes no separator and removes none. -/
theorem isSeparator_toLower (c : Char) : isSeparator c.toLower = isSeparator c := by
  rw [Bool.eq_iff_iff, isSeparator_iff, isSeparator_iff, toNat_toLower]
  split <;> omega

theorem isDigit_toLower (c : Char) : c.toLower.isDigit = c.isDigit := by
  rw [Bool.eq_iff_iff, isDigit_iff, isDigit_iff, toNat_toLower]
  split <;> omega

theorem toLower_eq_of_not_upper (small : c.isUpper = false) : c.toLower = c := by
  refine Char.toNat_inj.mp ?_
  rw [toNat_toLower]
  refine if_neg fun capital => ?_
  rw [isUpper_iff.mpr capital] at small
  cases small

theorem toLower_toLower (c : Char) : c.toLower.toLower = c.toLower :=
  toLower_eq_of_not_upper (isUpper_toLower c)

theorem toUpper_toUpper (c : Char) : c.toUpper.toUpper = c.toUpper := by
  refine Char.toNat_inj.mp ?_
  rw [toNat_toUpper c.toUpper]
  refine if_neg ?_
  rw [toNat_toUpper]
  split <;> omega

/-- A character of a word stays a character of a word. -/
theorem toLower_ne_underscore (word : isSeparator c = false) : c.toLower ≠ '_' := by
  intro underscore
  rw [← isSeparator_toLower, underscore] at word
  cases word

theorem isSeparator_of_isDigit (digit : c.isDigit = true) : isSeparator c = false := by
  rw [Bool.eq_false_iff, ne_eq, isSeparator_iff]
  have range := isDigit_iff.mp digit
  omega

end Character

/-! ## The normal form -/

/-- Two characters in a row that are not both underscores. -/
def Apart (c next : Char) : Prop := c = '_' → next ≠ '_'

/-- The characters of a name in snake case: neither capitals nor separators other
than single underscores, and no digit in front. -/
structure IsSnakeCase (name : List Char) : Prop where
  small : ∀ c ∈ name, c.isUpper = false
  plain : ∀ c ∈ name, isSeparator c = true → c = '_'
  single : name.IsChain Apart
  start : ∀ c ∈ name.head?, c.isDigit = false

/-! ## Single underscores -/

/-- A character that goes on with a word is added in lower case. -/
theorem snakeWords_word {c : Char} {rest : List Char} {previous : Option Char}
    (word : isSeparator c = false) (joined : startsWord previous c = false) :
    snakeWords previous (c :: rest) = c.toLower :: snakeWords (some c) rest := by
  rw [snakeWords, if_neg (Bool.eq_false_iff.mp word), if_neg (Bool.eq_false_iff.mp joined)]

/-- Behind an underscore separators add nothing, so the next word comes first. -/
theorem head_snakeWords (name : List Char) :
    ∀ c ∈ (snakeWords (some '_') name).head?, c ≠ '_' := by
  induction name with
  | nil =>
    intro c first
    cases first
  | cons first rest ih =>
    cases separator : isSeparator first with
    | true =>
      rw [snakeWords, if_pos separator, if_pos rfl]
      exact ih
    | false =>
      rw [snakeWords_word separator rfl]
      intro c head
      cases head
      exact toLower_ne_underscore separator

/-- Splitting never puts two underscores side by side. -/
theorem isChain_snakeWords (name : List Char) (previous : Option Char) :
    (snakeWords previous name).IsChain Apart := by
  induction name generalizing previous with
  | nil => exact List.isChain_nil
  | cons first rest ih =>
    unfold snakeWords
    cases separator : isSeparator first with
    | true =>
      rw [if_pos rfl]
      split
      · exact ih _
      -- Behind an underscore no further separator adds one.
      · exact List.isChain_cons.mpr ⟨fun c next _ => head_snakeWords rest c next, ih _⟩
    | false =>
      have word := toLower_ne_underscore separator
      have chain : (first.toLower :: snakeWords (some first) rest).IsChain Apart :=
        List.isChain_cons.mpr ⟨fun _ _ underscore => absurd underscore word, ih _⟩
      rw [if_neg Bool.false_ne_true]
      split
      · exact List.isChain_cons_cons.mpr ⟨fun _ => word, chain⟩
      · exact chain

/-- What stands behind an underscore that keeps a leading digit off is the digit. -/
theorem isChain_leadingUnderscore (name : List Char) :
    (leadingUnderscore name ++ snakeWords none name).IsChain Apart := by
  have words := isChain_snakeWords name none
  unfold leadingUnderscore
  split
  · rename_i first rest
    split
    · rename_i digit
      have word := isSeparator_of_isDigit digit
      refine List.isChain_cons.mpr ⟨?_, words⟩
      rw [snakeWords_word word rfl]
      intro c head underscore
      cases head
      exact toLower_ne_underscore word
    · exact words
  · exact words

/-- Where no two underscores meet there is nothing to halve. -/
theorem halveUnderscores_of_isChain {name : List Char} (single : name.IsChain Apart) :
    halveUnderscores name = name := by
  fun_induction halveUnderscores name with
  | case1 rest ih => exact absurd rfl ((List.isChain_cons_cons.mp single).1 rfl)
  | case2 first rest _ ih => rw [ih (List.isChain_cons.mp single).2]
  | case3 => rfl

/-- The last pass changes nothing, since no underscore was doubled. -/
theorem toList_snakeCase (name : String) : (snakeCase name).toList =
    leadingUnderscore name.toList ++ snakeWords none name.toList := by
  unfold snakeCase snakeCaseChars
  rw [String.toList_ofList]
  exact halveUnderscores_of_isChain (isChain_leadingUnderscore name.toList)

/-! ## Names in snake case -/

/-- The only separator left is the underscore. -/
theorem eq_underscore_of_mem_snakeCase {name : String} :
    ∀ c ∈ (snakeCase name).toList, isSeparator c = true → c = '_' := by
  refine forall_mem_snakeCase (fun _ => rfl) fun c _ word separator => ?_
  rw [isSeparator_toLower, word] at separator
  cases separator

/-- A name in snake case starts with an underscore or as the name does, and then
with no digit. -/
theorem head_leadingUnderscore (name : List Char) :
    ∀ c ∈ (leadingUnderscore name ++ snakeWords none name).head?, c.isDigit = false := by
  unfold leadingUnderscore
  split
  · rename_i first rest
    cases digit : first.isDigit with
    | true =>
      intro c head
      cases head
      rfl
    | false =>
      rw [if_neg Bool.false_ne_true, List.nil_append]
      cases separator : isSeparator first with
      | true =>
        rw [snakeWords, if_pos separator, if_neg (by simp)]
        intro c head
        cases head
        rfl
      | false =>
        rw [snakeWords_word separator rfl]
        intro c head
        cases head
        rw [isDigit_toLower, digit]
  · intro c head
    cases head

/-- Whatever the name is, the result has the normal form. -/
theorem isSnakeCase_snakeCase (name : String) : IsSnakeCase (snakeCase name).toList where
  small := isUpper_of_mem_snakeCase
  plain := eq_underscore_of_mem_snakeCase
  single := by
    rw [toList_snakeCase]
    exact isChain_leadingUnderscore name.toList
  start := by
    rw [toList_snakeCase]
    exact head_leadingUnderscore name.toList

/-! ## What a name keeps -/

/-- Splitting keeps all characters of words, in lower case and in order. -/
theorem filter_snakeWords (name : List Char) (previous : Option Char) :
    (snakeWords previous name).filter (!isSeparator ·) =
      (name.filter (!isSeparator ·)).map Char.toLower := by
  have underscore : (!isSeparator '_') = false := by decide
  induction name generalizing previous with
  | nil => rfl
  | cons first rest ih =>
    unfold snakeWords
    cases separator : isSeparator first with
    | true =>
      rw [if_pos rfl, List.filter_cons_of_neg (by simp [separator])]
      split
      · exact ih _
      · rw [List.filter_cons_of_neg (by simp [underscore])]
        exact ih _
    | false =>
      have kept : (first.toLower :: snakeWords (some first) rest).filter (!isSeparator ·) =
          first.toLower :: (rest.filter (!isSeparator ·)).map Char.toLower := by
        rw [List.filter_cons_of_pos (by simp [isSeparator_toLower, separator]), ih]
      rw [if_neg Bool.false_ne_true, List.filter_cons_of_pos (by simp [separator]), List.map_cons]
      split
      · rw [List.filter_cons_of_neg (by simp [underscore])]
        exact kept
      · exact kept

/-- Apart from separators a name keeps its characters, made small. -/
theorem filter_snakeCase (name : String) :
    (snakeCase name).toList.filter (!isSeparator ·) =
      (name.toList.filter (!isSeparator ·)).map Char.toLower := by
  have leading : (leadingUnderscore name.toList).filter (!isSeparator ·) = [] := by
    refine List.filter_eq_nil_iff.mpr fun c listed => ?_
    rw [eq_underscore_of_mem_leadingUnderscore c listed]
    decide
  rw [toList_snakeCase, List.filter_append, leading, List.nil_append]
  exact filter_snakeWords name.toList none

/-! ## Names that stay -/

/-- What is in normal form behind some character stays: nothing is a capital, and
each underscore is the first of its run. -/
theorem snakeWords_of_small {name : List Char} {previous : Option Char}
    (small : ∀ c ∈ name, c.isUpper = false)
    (plain : ∀ c ∈ name, isSeparator c = true → c = '_') (single : name.IsChain Apart)
    (fresh : previous = some '_' → ∀ c ∈ name.head?, c ≠ '_') :
    snakeWords previous name = name := by
  induction name generalizing previous with
  | nil => rfl
  | cons first rest ih =>
    obtain ⟨firstSmall, restSmall⟩ := List.forall_mem_cons.mp small
    obtain ⟨firstPlain, restPlain⟩ := List.forall_mem_cons.mp plain
    obtain ⟨apart, restSingle⟩ := List.isChain_cons.mp single
    have later (before : Option Char) := @ih before restSmall restPlain restSingle
    cases separator : isSeparator first with
    | true =>
      obtain rfl := firstPlain separator
      have opened : previous ≠ some '_' := fun same => fresh same '_' rfl rfl
      rw [snakeWords, if_pos separator, if_neg opened, later _ fun _ c next => apart c next rfl]
    | false =>
      -- A new word would need a capital.
      have joined : startsWord previous first = false := by
        unfold startsWord
        split <;> simp [firstSmall]
      have letter : some first ≠ some '_' := by
        intro underscore
        rw [Option.some.inj underscore] at separator
        cases separator
      rw [snakeWords_word separator joined, toLower_eq_of_not_upper firstSmall,
        later _ fun same => absurd same letter]

/-- A name in the normal form is left as it is. -/
theorem snakeCase_of_isSnakeCase {name : String} (normal : IsSnakeCase name.toList) :
    snakeCase name = name := by
  have leading : leadingUnderscore name.toList = [] := by
    unfold leadingUnderscore
    split
    · rename_i first rest listed
      exact if_neg (Bool.eq_false_iff.mp (normal.start first (by rw [listed]; rfl)))
    · rfl
  have words : snakeWords none name.toList = name.toList :=
    snakeWords_of_small normal.small normal.plain normal.single (by simp)
  rw [← String.toList_inj, toList_snakeCase, leading, List.nil_append, words]

/-- The names that are left as they are have the normal form, and no others. -/
theorem snakeCase_eq_self_iff {name : String} :
    snakeCase name = name ↔ IsSnakeCase name.toList := by
  constructor
  · intro stays
    rw [← stays]
    exact isSnakeCase_snakeCase name
  · exact snakeCase_of_isSnakeCase

/-- A second pass changes nothing. -/
theorem snakeCase_snakeCase (name : String) : snakeCase (snakeCase name) = snakeCase name :=
  snakeCase_of_isSnakeCase (isSnakeCase_snakeCase name)

theorem ofList_map_map {change : Char → Char} (again : ∀ c, change (change c) = change c)
    (name : String) :
    String.ofList ((String.ofList (name.toList.map change)).toList.map change) =
      String.ofList (name.toList.map change) := by
  rw [String.toList_ofList, List.map_map]
  exact congrArg String.ofList (List.map_congr_left fun c _ => again c)

end RegisterBank.Text

/-! ## Case conventions -/

namespace RegisterBank.NamingCase

open RegisterBank.Text

/-- A name in a convention stays as it is when the convention is applied again. -/
theorem apply_apply (convention : NamingCase) (name : String) :
    convention.apply (convention.apply name) = convention.apply name := by
  unfold apply
  cases convention with
  | keep => rfl
  | lower => exact ofList_map_map toLower_toLower name
  | upper => exact ofList_map_map toUpper_toUpper name
  | snake => exact snakeCase_snakeCase name

/-- **Names are brought into a normal form.**  Snake case gives a name in normal
form that has the characters of the old one, made small, apart from separators.
The names in normal form are those it leaves alone.  Every case convention is
idempotent and takes identifiers to identifiers. -/
theorem names_normalised (name : String) :
    (IsSnakeCase (snakeCase name).toList ∧
      (snakeCase name).toList.filter (!isSeparator ·) =
        (name.toList.filter (!isSeparator ·)).map Char.toLower ∧
      (snakeCase name = name ↔ IsSnakeCase name.toList) ∧
      snakeCase (snakeCase name) = snakeCase name) ∧
    ∀ convention : NamingCase,
      (isIdentifier name = true → isIdentifier (convention.apply name) = true) ∧
      convention.apply (convention.apply name) = convention.apply name := by
  refine ⟨⟨?normal, ?kept, ?fixed, ?again⟩, fun convention => ⟨?identifier, ?stays⟩⟩
  case normal => exact isSnakeCase_snakeCase name
  case kept => exact filter_snakeCase name
  case fixed => exact snakeCase_eq_self_iff
  case again => exact snakeCase_snakeCase name
  case identifier => exact convention.isIdentifier_apply
  case stays => exact convention.apply_apply name

theorem names_normalised_camel :
    isIdentifier "IRQ__StatusReg2" = true ∧
      snake.apply "IRQ__StatusReg2" = "irq_status_reg2" ∧
      isIdentifier "irq_status_reg2" = true ∧
      snake.apply "irq_status_reg2" = "irq_status_reg2" := by
  have identifier : isIdentifier "IRQ__StatusReg2" = true := by decide
  have written : snake.apply "IRQ__StatusReg2" = "irq_status_reg2" := by decide
  have named := (names_normalised "IRQ__StatusReg2").2 snake
  rw [written] at named
  exact ⟨identifier, written, named.1 identifier, named.2⟩

-- An underscore for the leading digit, for the separators and for the new word.
example : snake.apply "9 -livesLeft" = "_9_lives_left" := by
  decide

end RegisterBank.NamingCase
