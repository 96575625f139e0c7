import RegisterBank.NamingCase
import RegisterBank.Proofs.Text.SnakeCase
import RegisterBank.Text.Identifier

/-!
# Identifiers in every case convention

An identifier stays one when more of its characters are put behind it, and when
a case convention is applied to it.  No convention takes the last underscore out
of a name either, so a name that was put together with one keeps it.
-/

namespace RegisterBank.Text

/-! ## Letters -/

theorem isAlpha_iff {c : Char} :
    c.isAlpha = true ↔ (65 ≤ c.toNat ∧ c.toNat ≤ 90) ∨ (97 ≤ c.toNat ∧ c.toNat ≤ 122) := by
  show (decide (c.val ≥ 65 ∧ c.val ≤ 90) || (c.val ≥ 97 && c.val ≤ 122)) = true ↔ _
  simp only [Bool.or_eq_true, Bool.and_eq_true, decide_eq_true_eq, UInt32.le_iff_toNat_le,
    ge_iff_le]
  rfl

theorem isUpper_iff {c : Char} : c.isUpper = true ↔ 65 ≤ c.toNat ∧ c.toNat ≤ 90 := by
  unfold Char.isUpper
  rw [decide_eq_true_iff]
  rfl

theorem toNat_toLower (c : Char) : c.toLower.toNat =
    if 65 ≤ c.toNat ∧ c.toNat ≤ 90 then c.toNat + 32 else c.toNat := by
  unfold Char.toLower
  split
  · rename_i capital
    have range : 65 ≤ c.toNat ∧ c.toNat ≤ 90 := capital
    rw [if_pos range]
    show (c.val + ('a'.val - 'A'.val)).toNat = c.val.toNat + 32
    rw [UInt32.toNat_add]
    show (c.val.toNat + 32) % 4294967296 = c.val.toNat + 32
    exact Nat.mod_eq_of_lt (Nat.lt_of_le_of_lt (Nat.add_le_add_right range.2 32) (by decide))
  · rename_i other
    exact (if_neg other).symm

theorem toNat_toUpper (c : Char) : c.toUpper.toNat =
    if 97 ≤ c.toNat ∧ c.toNat ≤ 122 then c.toNat - 32 else c.toNat := by
  unfold Char.toUpper
  split
  · rename_i small
    have range : 97 ≤ c.toNat ∧ c.toNat ≤ 122 := small
    rw [if_pos range]
    show (c.val + ('A'.val - 'a'.val)).toNat = c.val.toNat - 32
    rw [UInt32.toNat_add]
    show (c.val.toNat + 4294967264) % 4294967296 = c.val.toNat - 32
    have low : 97 ≤ c.val.toNat := range.1
    have high : c.val.toNat ≤ 122 := range.2
    omega
  · rename_i other
    exact (if_neg other).symm

/-- Changing the case of a letter leaves it a letter. -/
theorem isAlpha_toLower (c : Char) : c.toLower.isAlpha = c.isAlpha := by
  rw [Bool.eq_iff_iff, isAlpha_iff, isAlpha_iff, toNat_toLower]
  split <;> omega

theorem isAlpha_toUpper (c : Char) : c.toUpper.isAlpha = c.isAlpha := by
  rw [Bool.eq_iff_iff, isAlpha_iff, isAlpha_iff, toNat_toUpper]
  split <;> omega

/-- A change of case moves letters only. -/
theorem toLower_eq_of_not_alpha {c : Char} (other : c.isAlpha = false) : c.toLower = c := by
  refine Char.toNat_inj.mp ?_
  rw [toNat_toLower]
  refine if_neg fun capital => ?_
  rw [isAlpha_iff.mpr (Or.inl capital)] at other
  cases other

theorem toUpper_eq_of_not_alpha {c : Char} (other : c.isAlpha = false) : c.toUpper = c := by
  refine Char.toNat_inj.mp ?_
  rw [toNat_toUpper]
  refine if_neg fun small => ?_
  rw [isAlpha_iff.mpr (Or.inr small)] at other
  cases other

/-! ## Identifiers put together -/

theorem isIdentifierRest_of_start {c : Char} (start : isIdentifierStart c = true) :
    isIdentifierRest c = true := by
  unfold isIdentifierStart at start
  unfold isIdentifierRest Char.isAlphanum
  rcases Bool.or_eq_true_iff.mp start with letter | underscore
  · rw [letter, Bool.true_or, Bool.true_or]
  · rw [underscore, Bool.or_true]

/-- Every character of an identifier is a letter, a digit or an underscore. -/
theorem isIdentifierRest_of_mem {name : List Char} (identifier : isIdentifierChars name = true)
    {c : Char} (listed : c ∈ name) : isIdentifierRest c = true := by
  cases name with
  | nil => cases listed
  | cons first rest =>
    unfold isIdentifierChars at identifier
    rw [Bool.and_eq_true] at identifier
    rcases List.mem_cons.mp listed with rfl | behind
    · exact isIdentifierRest_of_start identifier.1
    · exact List.all_eq_true.mp identifier.2 c behind

/-- Other characters do not stand in identifiers. -/
theorem notMem_of_isIdentifier {name : String} (identifier : isIdentifier name = true) {c : Char}
    (other : isIdentifierRest c = false) : c ∉ name.toList := by
  intro listed
  have inside := isIdentifierRest_of_mem identifier listed
  rw [other] at inside
  cases inside

theorem isIdentifierChars_append {name ending : List Char}
    (identifier : isIdentifierChars name = true)
    (characters : ∀ c ∈ ending, isIdentifierRest c = true) :
    isIdentifierChars (name ++ ending) = true := by
  cases name with
  | nil => cases identifier
  | cons first rest =>
    unfold isIdentifierChars at identifier
    rw [Bool.and_eq_true] at identifier
    rw [List.cons_append, isIdentifierChars, identifier.1, Bool.true_and, List.all_append,
      identifier.2, Bool.true_and]
    exact List.all_eq_true.mpr characters

/-- An identifier may be continued by its own characters. -/
theorem isIdentifier_append {name ending : String} (identifier : isIdentifier name = true)
    (characters : ∀ c ∈ ending.toList, isIdentifierRest c = true) :
    isIdentifier (name ++ ending) = true := by
  unfold isIdentifier
  rw [String.toList_append]
  exact isIdentifierChars_append identifier characters

/-! ## Identifiers in a case convention -/

/-- Lower case keeps what may start an identifier. -/
theorem isIdentifierStart_toLower {c : Char} (start : isIdentifierStart c = true) :
    isIdentifierStart c.toLower = true := by
  unfold isIdentifierStart at start ⊢
  rw [isAlpha_toLower]
  rcases Bool.or_eq_true_iff.mp start with letter | underscore
  · rw [letter, Bool.true_or]
  · rw [beq_iff_eq.mp underscore]
    decide

theorem isIdentifierStart_toUpper {c : Char} (start : isIdentifierStart c = true) :
    isIdentifierStart c.toUpper = true := by
  unfold isIdentifierStart at start ⊢
  rw [isAlpha_toUpper]
  rcases Bool.or_eq_true_iff.mp start with letter | underscore
  · rw [letter, Bool.true_or]
  · rw [beq_iff_eq.mp underscore]
    decide

/-- Lower case keeps what may stand in an identifier. -/
theorem isIdentifierRest_toLower {c : Char} (inside : isIdentifierRest c = true) :
    isIdentifierRest c.toLower = true := by
  unfold isIdentifierRest Char.isAlphanum at inside ⊢
  cases letter : c.isAlpha with
  | true => rw [isAlpha_toLower, letter, Bool.true_or, Bool.true_or]
  | false =>
    rw [toLower_eq_of_not_alpha letter, letter]
    rw [letter] at inside
    exact inside

theorem isIdentifierRest_toUpper {c : Char} (inside : isIdentifierRest c = true) :
    isIdentifierRest c.toUpper = true := by
  unfold isIdentifierRest Char.isAlphanum at inside ⊢
  cases letter : c.isAlpha with
  | true => rw [isAlpha_toUpper, letter, Bool.true_or, Bool.true_or]
  | false =>
    rw [toUpper_eq_of_not_alpha letter, letter]
    rw [letter] at inside
    exact inside

/-- A change of every character that keeps what may start and what may continue
an identifier keeps identifiers. -/
theorem isIdentifierChars_map {change : Char → Char} {name : List Char}
    (starts : ∀ c, isIdentifierStart c = true → isIdentifierStart (change c) = true)
    (continues : ∀ c, isIdentifierRest c = true → isIdentifierRest (change c) = true)
    (identifier : isIdentifierChars name = true) :
    isIdentifierChars (name.map change) = true := by
  cases name with
  | nil => cases identifier
  | cons first rest =>
    unfold isIdentifierChars at identifier
    rw [Bool.and_eq_true, List.all_eq_true] at identifier
    rw [List.map_cons, isIdentifierChars, starts first identifier.1, Bool.true_and,
      List.all_eq_true]
    intro c listed
    obtain ⟨d, member, rfl⟩ := List.mem_map.mp listed
    exact continues d (identifier.2 d member)

/-- Splitting into words brings in underscores and nothing else. -/
theorem isIdentifierRest_snakeWords {name : List Char}
    (characters : ∀ c ∈ name, isIdentifierRest c = true) (previous : Option Char) :
    ∀ c ∈ snakeWords previous name, isIdentifierRest c = true :=
  forall_mem_snakeWords (by decide)
    (fun c listed _ => isIdentifierRest_toLower (characters c listed)) previous

/-- Halving keeps one underscore of a run at least, so the first character
stays. -/
theorem isIdentifierChars_halveUnderscores {name : List Char}
    (identifier : isIdentifierChars name = true) :
    isIdentifierChars (halveUnderscores name) = true := by
  have inside : ∀ c ∈ halveUnderscores name, isIdentifierRest c = true := fun c listed =>
    isIdentifierRest_of_mem identifier (mem_of_mem_halveUnderscores listed)
  -- The first character stays the first, doubled underscore or not.
  have first : ∃ c rest, halveUnderscores name = c :: rest ∧ isIdentifierStart c = true := by
    unfold halveUnderscores
    split
    · exact ⟨'_', _, rfl, by decide⟩
    · rename_i c rest _
      unfold isIdentifierChars at identifier
      rw [Bool.and_eq_true] at identifier
      exact ⟨c, _, rfl, identifier.1⟩
    · cases identifier
  obtain ⟨c, rest, equal, start⟩ := first
  rw [equal] at inside ⊢
  rw [isIdentifierChars, start, Bool.true_and, List.all_eq_true]
  exact fun d listed => inside d (List.mem_cons_of_mem _ listed)

/-- The words of an identifier start with an underscore or with its first
letter made small. -/
theorem isIdentifierChars_snakeWords {name : List Char}
    (identifier : isIdentifierChars name = true) :
    isIdentifierChars (snakeWords none name) = true := by
  have inside := isIdentifierRest_snakeWords (fun c listed =>
    isIdentifierRest_of_mem identifier listed) none
  cases name with
  | nil => cases identifier
  | cons first rest =>
    unfold isIdentifierChars at identifier
    rw [Bool.and_eq_true] at identifier
    have small := isIdentifierStart_toLower identifier.1
    unfold snakeWords at inside ⊢
    by_cases separator : isSeparator first = true
    · rw [if_pos separator, if_neg (by simp)] at inside ⊢
      rw [isIdentifierChars, List.all_eq_true.mpr fun c listed =>
        inside c (List.mem_cons_of_mem _ listed)]
      decide
    · rw [if_neg separator] at inside ⊢
      have noWord : ¬ startsWord none first = true := by simp [startsWord]
      rw [if_neg noWord] at inside ⊢
      rw [isIdentifierChars, small, List.all_eq_true.mpr fun c listed =>
        inside c (List.mem_cons_of_mem _ listed)]
      decide

/-- Snake case makes an identifier of an identifier. -/
theorem isIdentifierChars_snakeCaseChars {name : List Char}
    (identifier : isIdentifierChars name = true) :
    isIdentifierChars (snakeCaseChars name) = true := by
  have words := isIdentifierChars_snakeWords identifier
  refine isIdentifierChars_halveUnderscores ?_
  unfold leadingUnderscore
  split
  · split
    · show isIdentifierChars ('_' :: snakeWords none _) = true
      rw [isIdentifierChars, List.all_eq_true.mpr fun c listed =>
        isIdentifierRest_of_mem words listed]
      decide
    · exact words
  · exact words

/-! ## Underscores -/

/-- An underscore that separates words survives splitting. -/
theorem underscore_mem_snakeWords {name : List Char} (listed : '_' ∈ name)
    {previous : Option Char} (fresh : previous ≠ some '_') : '_' ∈ snakeWords previous name := by
  induction name generalizing previous with
  | nil => cases listed
  | cons first rest ih =>
    unfold snakeWords
    by_cases separator : isSeparator first = true
    · rw [if_pos separator, if_neg fresh]
      exact List.mem_cons_self
    · have other : first ≠ '_' := by
        rintro rfl
        exact separator (by decide)
      have behind : '_' ∈ rest := (List.mem_cons.mp listed).resolve_left (Ne.symm other)
      have nextFresh : some first ≠ some '_' := by simpa using other
      have later := ih behind nextFresh
      rw [if_neg separator]
      split
      · exact List.mem_cons_self
      · exact List.mem_cons_of_mem _ later

/-- Halving never removes all underscores of a run. -/
theorem underscore_mem_halveUnderscores {name : List Char} (listed : '_' ∈ name) :
    '_' ∈ halveUnderscores name := by
  fun_induction halveUnderscores name with
  | case1 rest ih => exact List.mem_cons_self
  | case2 first rest _ ih =>
    rcases List.mem_cons.mp listed with rfl | behind
    · exact List.mem_cons_self
    · exact List.mem_cons_of_mem _ (ih behind)
  | case3 => exact listed

end RegisterBank.Text

/-! ## Case conventions -/

namespace RegisterBank.NamingCase

open RegisterBank.Text

/-- A case convention leaves identifiers among themselves. -/
theorem isIdentifier_apply (convention : NamingCase) {name : String}
    (identifier : isIdentifier name = true) : isIdentifier (convention.apply name) = true := by
  unfold apply isIdentifier at *
  cases convention with
  | keep => exact identifier
  | lower =>
    unfold lowerCase
    rw [String.toList_ofList]
    exact isIdentifierChars_map (fun _ => isIdentifierStart_toLower)
      (fun _ => isIdentifierRest_toLower) identifier
  | upper =>
    unfold upperCase
    rw [String.toList_ofList]
    exact isIdentifierChars_map (fun _ => isIdentifierStart_toUpper)
      (fun _ => isIdentifierRest_toUpper) identifier
  | snake =>
    unfold snakeCase
    rw [String.toList_ofList]
    exact isIdentifierChars_snakeCaseChars identifier

/-- No case convention takes all underscores out of a name. -/
theorem underscore_mem_apply (convention : NamingCase) {name : String}
    (listed : '_' ∈ name.toList) : '_' ∈ (convention.apply name).toList := by
  unfold apply
  cases convention with
  | keep => exact listed
  | lower =>
    unfold lowerCase
    rw [String.toList_ofList]
    exact List.mem_map.mpr ⟨'_', listed, by decide⟩
  | upper =>
    unfold upperCase
    rw [String.toList_ofList]
    exact List.mem_map.mpr ⟨'_', listed, by decide⟩
  | snake =>
    unfold snakeCase snakeCaseChars
    rw [String.toList_ofList]
    exact underscore_mem_halveUnderscores
      (List.mem_append_right _ (underscore_mem_snakeWords listed (by simp)))

end RegisterBank.NamingCase
