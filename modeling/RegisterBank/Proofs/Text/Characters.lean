import RegisterBank.Proofs.Text.Identifiers
import RegisterBank.Proofs.Text.Integers

/-!
# Characters of texts that are put together

What holds of the characters of some texts holds of those of the texts put
together.  Numbers are written, in whatever notation, with characters that may
continue an identifier.
-/

namespace RegisterBank.Text

/-! ## Texts put together -/

section Composed

variable {holds : Char → Prop} {first second separator : String} {words : List String}

theorem forall_mem_append (here : ∀ c ∈ first.toList, holds c)
    (there : ∀ c ∈ second.toList, holds c) : ∀ c ∈ (first ++ second).toList, holds c := by
  rw [String.toList_append]
  exact List.forall_mem_append.mpr ⟨here, there⟩

theorem forall_mem_intercalate (between : ∀ c ∈ separator.toList, holds c)
    (each : ∀ word ∈ words, ∀ c ∈ word.toList, holds c) :
    ∀ c ∈ (separator.intercalate words).toList, holds c := by
  induction words with
  | nil =>
    intro c listed
    cases listed
  | cons word rest ih =>
    obtain ⟨first, behind⟩ := List.forall_mem_cons.mp each
    cases rest with
    | nil =>
      rw [String.intercalate_singleton]
      exact first
    | cons next rest =>
      rw [String.intercalate_cons_cons]
      exact forall_mem_append (forall_mem_append first between) (ih behind)

end Composed

/-! ## Numbers -/

/-- Digits up to base sixteen are characters of identifiers. -/
theorem isIdentifierRest_digitChar : ∀ digit < 16, isIdentifierRest digit.digitChar = true := by
  decide

/-- A number's digits may end an identifier. -/
theorem isIdentifierRest_of_mem_toString (value : Nat) :
    ∀ c ∈ (toString value).toList, isIdentifierRest c = true := by
  intro c listed
  have digits : (toString value).toList = Nat.toDigits 10 value := by
    show (Nat.repr value).toList = _
    unfold Nat.repr
    exact String.toList_ofList
  rw [digits] at listed
  exact forall_mem_toDigits (by decide) (fun c => isIdentifierRest c = true)
    (fun digit small => isIdentifierRest_digitChar digit (by omega)) value c listed

theorem isIdentifierRest_of_mem_hexDigits (value : Nat) :
    ∀ c ∈ hexDigits value, isIdentifierRest c = true :=
  forall_mem_toDigits (by decide) (fun c => isIdentifierRest c = true)
    isIdentifierRest_digitChar value

/-- Digits in groups behind the mark of hexadecimal notation. -/
theorem isIdentifierRest_of_mem_marked {digits : List Char}
    (plain : ∀ c ∈ digits, isIdentifierRest c = true) :
    ∀ c ∈ ("0x" ++ String.ofList (groupDigits digits)).toList, isIdentifierRest c = true := by
  have mark : "0x".toList.all isIdentifierRest = true := by decide
  refine forall_mem_append (List.all_eq_true.mp mark) ?_
  intro c listed
  rw [String.toList_ofList] at listed
  rcases mem_of_mem_groupDigits listed with digit | rfl
  · exact plain c digit
  · decide

/-- Addresses are shown with letters and digits only. -/
theorem isIdentifierRest_of_mem_hexAddress (value width : Nat) :
    ∀ c ∈ (hexAddress value width).toList, isIdentifierRest c = true := by
  apply isIdentifierRest_of_mem_marked
  intro c listed
  rcases List.mem_append.mp listed with zero | digit
  · rw [(List.mem_replicate.mp zero).2]
    decide
  · exact isIdentifierRest_of_mem_hexDigits value c digit

/-- Grouped constants add nothing but underscores. -/
theorem isIdentifierRest_of_mem_hexConstant (value : Nat) :
    ∀ c ∈ (hexConstant value).toList, isIdentifierRest c = true := by
  unfold hexConstant
  split
  · exact isIdentifierRest_of_mem_marked (isIdentifierRest_of_mem_hexDigits value)
  · exact isIdentifierRest_of_mem_toString value

end RegisterBank.Text
