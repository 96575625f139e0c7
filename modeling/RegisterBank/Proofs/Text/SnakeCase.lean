import Mathlib.Data.List.Basic
import RegisterBank.Text.SnakeCase

/-!
# Names without capitals

Snake case and lower case leave no ASCII capital in a name: each pass keeps a
character, makes it small, or puts an underscore in.  So what holds of
underscores and of all small forms holds of every name in snake case.
-/

namespace RegisterBank.Text

theorem isUpper_toLower (c : Char) : c.toLower.isUpper = false := by
  unfold Char.toLower
  split
  · rename_i capital
    have low : 65 ≤ c.val.toNat := capital.1
    have high : c.val.toNat ≤ 90 := capital.2
    have moved : (c.val + ('a'.val - 'A'.val)).toNat = c.val.toNat + 32 := by
      rw [UInt32.toNat_add]
      show (c.val.toNat + 32) % 4294967296 = c.val.toNat + 32
      omega
    unfold Char.isUpper
    refine decide_eq_false ?_
    rintro ⟨-, bound⟩
    have bound' : (c.val + ('a'.val - 'A'.val)).toNat ≤ 90 := bound
    omega
  · rename_i other
    unfold Char.isUpper
    exact decide_eq_false other

/-- No capital is left in lower case. -/
theorem isUpper_of_mem_lowerCase {name : String} :
    ∀ c ∈ (lowerCase name).toList, c.isUpper = false := by
  unfold lowerCase
  rw [String.toList_ofList]
  intro c listed
  obtain ⟨d, -, rfl⟩ := List.mem_map.mp listed
  exact isUpper_toLower d

/-! ## Names in snake case -/

/-- The words of a name are made of underscores and of what is no separator, made
small. -/
theorem forall_mem_snakeWords {holds : Char → Prop} {name : List Char} (underscore : holds '_')
    (each : ∀ c ∈ name, isSeparator c = false → holds c.toLower) (previous : Option Char) :
    ∀ c ∈ snakeWords previous name, holds c := by
  induction name generalizing previous with
  | nil => exact List.forall_mem_nil _
  | cons first rest ih =>
    obtain ⟨here, others⟩ := List.forall_mem_cons.mp each
    have behind := ih others
    unfold snakeWords
    cases separator : isSeparator first with
    | true =>
      rw [if_pos rfl]
      split
      · exact behind _
      · exact List.forall_mem_cons.mpr ⟨underscore, behind _⟩
    | false =>
      have word := List.forall_mem_cons.mpr ⟨here separator, behind (some first)⟩
      rw [if_neg Bool.false_ne_true]
      split
      · exact List.forall_mem_cons.mpr ⟨underscore, word⟩
      · exact word

theorem eq_underscore_of_mem_leadingUnderscore {name : List Char} :
    ∀ c ∈ leadingUnderscore name, c = '_' := by
  unfold leadingUnderscore
  split
  · split
    · exact List.forall_mem_singleton.mpr rfl
    · exact List.forall_mem_nil _
  · exact List.forall_mem_nil _

/-- Halving underscores adds no character. -/
theorem mem_of_mem_halveUnderscores {name : List Char} {c : Char}
    (listed : c ∈ halveUnderscores name) : c ∈ name := by
  fun_induction halveUnderscores name with
  | case1 rest ih =>
    rcases List.mem_cons.mp listed with rfl | listed
    · exact List.mem_cons_self
    · exact List.mem_cons_of_mem _ (List.mem_cons_of_mem _ (ih listed))
  | case2 first rest _ ih =>
    rcases List.mem_cons.mp listed with rfl | listed
    · exact List.mem_cons_self
    · exact List.mem_cons_of_mem _ (ih listed)
  | case3 => cases listed

/-- Each character of the result is an underscore or comes from one of the name,
in lower case. -/
theorem forall_mem_snakeCase {holds : Char → Prop} {name : String} (underscore : holds '_')
    (each : ∀ c ∈ name.toList, isSeparator c = false → holds c.toLower) :
    ∀ c ∈ (snakeCase name).toList, holds c := by
  unfold snakeCase snakeCaseChars
  rw [String.toList_ofList]
  intro c listed
  rcases List.mem_append.mp (mem_of_mem_halveUnderscores listed) with leading | word
  · rw [eq_underscore_of_mem_leadingUnderscore c leading]
    exact underscore
  · exact forall_mem_snakeWords underscore each none c word

/-- No capital is left in snake case. -/
theorem isUpper_of_mem_snakeCase {name : String} :
    ∀ c ∈ (snakeCase name).toList, c.isUpper = false :=
  forall_mem_snakeCase (by decide) fun c _ _ => isUpper_toLower c

end RegisterBank.Text
