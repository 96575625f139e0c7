import RegisterBank.Document.Tree
import RegisterBank.Proofs.Text.Integers

/-!
# Decimal digits

How documents write integers that are not negative: in decimal, without a zero
in front.  What the readers of both formats need to know of such digits is
collected here; they differ in how they sum them up.
-/

namespace RegisterBank.Document

/-- The decimal digits of a number. -/
def decimal (value : Nat) : List Char := Nat.toDigits 10 value

theorem toList_toString_ofNat (value : Nat) :
    (toString (Int.ofNat value)).toList = decimal value := by
  show (Nat.repr value).toList = decimal value
  unfold Nat.repr decimal
  exact String.toList_ofList

/-- A number is shown by its decimal digits. -/
theorem toList_toString (value : Nat) : (toString value).toList = decimal value :=
  toList_toString_ofNat value

/-- The last digit stands at the end, behind those of the tenth. -/
theorem decimal_eq (value : Nat) : decimal value =
    if value < 10 then [value.digitChar] else decimal (value / 10) ++ [(value % 10).digitChar] := by
  unfold decimal
  exact Nat.toDigits_eq_if (by decide)

theorem digitChar_spec : ∀ digit < 10,
    digit.digitChar.isDigit = true ∧ digit.digitChar.toNat - '0'.toNat = digit := by
  decide

theorem ne_of_isDigit {c d : Char} (digit : c.isDigit = true) (other : d.isDigit = false) :
    c ≠ d := by
  rintro rfl
  rw [other] at digit
  cases digit

/-- Only digits are written for a number. -/
theorem isDigit_of_mem_decimal (value : Nat) : ∀ c ∈ decimal value, c.isDigit = true :=
  Text.forall_mem_toDigits (by decide) (fun c => c.isDigit = true)
    (fun digit small => (digitChar_spec digit small).1) value

theorem decimal_ne_nil (value : Nat) : decimal value ≠ [] :=
  Nat.toDigits_ne_nil

/-- Only zero starts with a zero. -/
theorem decimal_head (value : Nat) :
    decimal value = ['0'] ∨ ∃ c rest, decimal value = c :: rest ∧ c ≠ '0' := by
  induction value using Nat.strongRecOn with
  | ind value ih =>
    rw [decimal_eq]
    by_cases small : value < 10
    · rw [if_pos small]
      by_cases zero : value = 0
      · rw [zero]
        exact Or.inl rfl
      · have other : ∀ digit < 10, digit ≠ 0 → digit.digitChar ≠ '0' := by decide
        exact Or.inr ⟨_, [], rfl, other value small zero⟩
    · rw [if_neg small]
      rcases ih (value / 10) (by omega) with zero | ⟨c, rest, start, other⟩
      · have positive : 0 < value / 10 := by omega
        have digits := decimal_eq (value / 10)
        rw [zero] at digits
        by_cases single : value / 10 < 10
        · rw [if_pos single] at digits
          have other : ∀ digit < 10, 0 < digit → digit.digitChar ≠ '0' := by decide
          exact absurd (List.cons.inj digits).1.symm (other _ single positive)
        · rw [if_neg single] at digits
          have lengths := congrArg List.length digits
          have filled := List.length_pos_iff.mpr (decimal_ne_nil (value / 10 / 10))
          simp at lengths
          exact absurd lengths (decimal_ne_nil _)
      · rw [start]
        exact Or.inr ⟨c, _, rfl, other⟩

end RegisterBank.Document
