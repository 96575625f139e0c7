import RegisterBank.Document.Toml.Number
import RegisterBank.Proofs.Document.Digits
import RegisterBank.Proofs.Document.Toml.Texts

/-!
# Integers read back from TOML

Before a number is read as an integer it is tried as a date, as a time and as a
floating-point number.  On decimal digits each of the three stops without
commitment, at the first character that is no digit.
-/

namespace RegisterBank.Document.Toml

/-- A reading that stopped and left room for another one. -/
def Declines {α : Type} (result : Except Stop α) : Prop :=
  ∃ stop, result = .error stop ∧ stop.committed = false

/-- A stop that is not committed lets the next reading be tried. -/
theorem declines_stopAt {α : Type} (rest : List Char) :
    Declines (.error (stopAt rest) : Except Stop α) := ⟨_, rfl, rfl⟩

/-- A first step that declines makes the whole reading decline. -/
theorem declines_bind {α β : Type} {result : Except Stop α} (declines : Declines result)
    (next : α → Except Stop β) : Declines (result >>= next) := by
  obtain ⟨stop, rfl, clear⟩ := declines
  exact ⟨stop, rfl, clear⟩

section Digits

variable {digits rest : List Char}

/-- What stands behind a value continues no number. -/
theorem Ends.head_not_digit (ends : Ends rest) :
    ∃ c more, rest = c :: more ∧ c.isDigit = false ∧ c ≠ '.' ∧ c ≠ 'e' ∧ c ≠ 'E' ∧ c ≠ '_' ∧
      c ≠ '-' ∧ c ≠ ':' ∧ c ≠ 'x' ∧ c ≠ 'o' ∧ c ≠ 'b' := by
  rcases ends with ⟨c, more, rfl, rfl | rfl | rfl⟩
  all_goals exact ⟨_, more, rfl, by decide⟩

/-- Digits taken from the front of a number leave digits of the number. -/
theorem fixedDigits?_digits (all : ∀ c ∈ digits, c.isDigit = true) (ends : Ends rest) {count : Nat}
    {taken after : List Char} (found : fixedDigits? count (digits ++ rest) = some (taken, after)) :
    ∃ later, after = later ++ rest ∧ ∀ c ∈ later, c.isDigit = true := by
  obtain ⟨c, more, rfl, notDigit, -⟩ := ends.head_not_digit
  unfold fixedDigits? at found
  simp only at found
  split at found
  · rename_i counted
    cases found
    have inside : count ≤ digits.length := by
      by_contra beyond
      obtain ⟨further, beyond⟩ : ∃ further, count - digits.length = further + 1 :=
        ⟨count - digits.length - 1, by omega⟩
      have listed : c ∈ (digits ++ c :: more).take count := by
        rw [List.take_append, beyond, List.take_succ_cons]
        exact List.mem_append_right _ List.mem_cons_self
      have digit := List.all_eq_true.mp counted.2 c listed
      rw [notDigit] at digit
      cases digit
    refine ⟨digits.drop count, List.drop_append_of_le_length inside, ?_⟩
    intro d listed
    exact all d (List.mem_of_mem_drop listed)
  · cases found

/-- Digits may pass for an hour; what they are followed by decides. -/
theorem twoDigits_digits (all : ∀ c ∈ digits, c.isDigit = true) (ends : Ends rest)
    (least greatest : Nat) :
    Declines (twoDigits least greatest (digits ++ rest)) ∨ ∃ hour later,
      twoDigits least greatest (digits ++ rest) = .ok (hour, later ++ rest) ∧
        ∀ c ∈ later, c.isDigit = true := by
  unfold twoDigits
  cases found : fixedDigits? 2 (digits ++ rest) with
  | none => exact Or.inl (declines_stopAt _)
  | some pair =>
    obtain ⟨taken, after⟩ := pair
    rcases fixedDigits?_digits all ends found with ⟨later, rfl, digitsLater⟩
    simp only
    split
    · exact Or.inr ⟨taken, later, rfl, digitsLater⟩
    · exact Or.inl (declines_stopAt _)

/-- No date or time has its mark among digits that end a value. -/
theorem expectChar_digits (all : ∀ c ∈ digits, c.isDigit = true) (ends : Ends rest) {d : Char}
    (mark : d = '-' ∨ d = ':') : Declines (expectChar d (digits ++ rest)) := by
  obtain ⟨c, more, rfl, -, -, -, -, -, dash, colon, -⟩ := ends.head_not_digit
  have refuses : ∀ {e : Char} {tail : List Char}, e ≠ d →
      Declines (expectChar d (e :: tail)) := by
    intro e tail other
    rw [expectChar, if_neg other]
    exact declines_stopAt _
  cases digits with
  | nil =>
    rcases mark with rfl | rfl
    · exact refuses dash
    · exact refuses colon
  | cons e digits =>
    have digit := all e List.mem_cons_self
    rcases mark with rfl | rfl
    · exact refuses (ne_of_isDigit digit rfl)
    · exact refuses (ne_of_isDigit digit rfl)

/-- An integer is no date. -/
theorem date_digits (all : ∀ c ∈ digits, c.isDigit = true) (ends : Ends rest) :
    Declines (date (digits ++ rest)) := by
  unfold date
  cases found : fixedDigits? 4 (digits ++ rest) with
  | none => exact declines_stopAt _
  | some pair =>
    obtain ⟨year, after⟩ := pair
    rcases fixedDigits?_digits all ends found with ⟨later, rfl, digitsLater⟩
    exact declines_bind (expectChar_digits digitsLater ends (Or.inl rfl)) _

/-- An integer is no time. -/
theorem time_digits (all : ∀ c ∈ digits, c.isDigit = true) (ends : Ends rest) :
    Declines (time (digits ++ rest)) := by
  unfold time
  rcases twoDigits_digits all ends 0 23 with declines | ⟨hour, later, found, digitsLater⟩
  · exact declines_bind declines _
  · rw [found]
    exact declines_bind (expectChar_digits digitsLater ends (Or.inr rfl)) _

/-- So the reading of dates declines an integer, and that of numbers goes on. -/
theorem dateTime_digits (all : ∀ c ∈ digits, c.isDigit = true) (ends : Ends rest) :
    Declines (dateTime (digits ++ rest)) := by
  rcases date_digits all ends with ⟨stop, dated, clear⟩
  rcases time_digits all ends with ⟨stop', timed, clear'⟩
  unfold dateTime
  rw [dated]
  simp only [clear, Bool.false_eq_true, if_false, timed]
  exact ⟨stop', rfl, clear'⟩

/-- A run of digits ends where the value ends. -/
theorem digitRun_digits (all : ∀ c ∈ digits, c.isDigit = true) (ends : Ends rest) :
    digitRun Char.isDigit (digits ++ rest) = .ok (digits, rest) := by
  induction digits with
  | nil =>
    obtain ⟨c, more, rfl, notDigit, -, -, -, line, -⟩ := ends.head_not_digit
    rw [List.nil_append, digitRun, if_neg (by simp [notDigit]), if_neg line]
  | cons c digits ih =>
    have others : ∀ d ∈ digits, d.isDigit = true :=
      fun d listed => all d (List.mem_cons_of_mem c listed)
    rw [List.cons_append, digitRun, if_pos (all c List.mem_cons_self), ih others]
    rfl

end Digits

section Decimal

variable {rest : List Char}

/-- The digits of a number are taken as a whole. -/
theorem decimalDigits_decimal (value : Nat) (ends : Ends rest) :
    decimalDigits (decimal value ++ rest) = .ok (decimal value, rest) := by
  have all := isDigit_of_mem_decimal value
  rcases decimal_head value with zero | ⟨c, more, start, other⟩
  · rw [zero]
    rfl
  · have digit : c.isDigit = true := all c (by rw [start]; exact List.mem_cons_self)
    have run := digitRun_digits all ends
    rw [start, List.cons_append] at run ⊢
    unfold decimalDigits
    split
    · rename_i same
      exact absurd (List.cons.inj same).1 other
    · rename_i same
      rw [← (List.cons.inj same).1, if_pos digit, run]
    · rename_i same
      cases same

theorem splitSign_decimal (value : Nat) (rest : List Char) :
    splitSign (decimal value ++ rest) = (false, decimal value ++ rest) := by
  rcases List.exists_cons_of_ne_nil (decimal_ne_nil value) with ⟨c, more, start⟩
  have digit : c.isDigit = true :=
    isDigit_of_mem_decimal value c (by rw [start]; exact List.mem_cons_self)
  rw [start, List.cons_append]
  unfold splitSign
  split
  · rename_i same
    exact absurd (List.cons.inj same).1 (ne_of_isDigit digit rfl)
  · rename_i same
    exact absurd (List.cons.inj same).1 (ne_of_isDigit digit rfl)
  · rfl

/-- Without a point or an exponent there is no float. -/
theorem decimalFloat_decimal (value : Nat) (ends : Ends rest) :
    Declines (decimalFloat (decimal value ++ rest)) := by
  have taken := decimalDigits_decimal value ends
  obtain ⟨c, more, rfl, -, point, small, capital, -⟩ := ends.head_not_digit
  have noExponent : exponent? (c :: more) = .ok (none, c :: more) := by
    unfold exponent?
    split
    · rename_i same
      exact absurd (List.cons.inj same).1 small
    · rename_i same
      exact absurd (List.cons.inj same).1 capital
    · rfl
  unfold decimalFloat
  rw [splitSign_decimal]
  simp only [taken, bind, Except.bind]
  split
  · rename_i same
    exact absurd (List.cons.inj same).1 point
  · rw [noExponent]
    exact declines_stopAt _

theorem float_decimal (value : Nat) (ends : Ends rest) :
    Declines (float (decimal value ++ rest)) := by
  rcases decimalFloat_decimal value ends with ⟨stop, refused, clear⟩
  rcases List.exists_cons_of_ne_nil (decimal_ne_nil value) with ⟨c, more, start⟩
  have digit : c.isDigit = true :=
    isDigit_of_mem_decimal value c (by rw [start]; exact List.mem_cons_self)
  have noWord : Declines (specialFloat (decimal value ++ rest)) := by
    unfold specialFloat
    rw [splitSign_decimal, start, List.cons_append]
    split
    · rename_i same
      exact absurd (List.cons.inj same).1 (ne_of_isDigit digit rfl)
    · rename_i same
      exact absurd (List.cons.inj same).1 (ne_of_isDigit digit rfl)
    · exact declines_stopAt _
  unfold float
  rw [refused]
  simp only [clear, Bool.false_eq_true, if_false]
  exact noWord

/-- The digits of a number have its value. -/
theorem digitsValue_decimal (value : Nat) : digitsValue 10 (decimal value) = value := by
  induction value using Nat.strongRecOn with
  | ind value ih =>
    have last : ∀ digit < 10, digitValue digit.digitChar = digit := by decide
    rw [decimal_eq]
    by_cases small : value < 10
    · rw [if_pos small]
      show 0 * 10 + digitValue value.digitChar = value
      rw [last value small]
      omega
    · rw [if_neg small]
      have early := ih (value / 10) (by omega)
      unfold digitsValue at early ⊢
      rw [List.foldl_append, early]
      show value / 10 * 10 + digitValue (value % 10).digitChar = value
      rw [last _ (Nat.mod_lt value (by decide)), Nat.div_add_mod']

/-- Integers below 2^63 are read back from their digits. -/
theorem integer_decimal {value : Nat} (small : value < Nat.pow 2 63) (ends : Ends rest) :
    integer (decimal value ++ rest) = .ok (.int value, rest) := by
  have taken := decimalDigits_decimal value ends
  obtain ⟨c, more, rfl, -, -, -, -, -, -, -, hex, oct, bin⟩ := ends.head_not_digit
  -- A zero in front is the whole number, so no letter of a base follows it.
  have noBase : ∀ {letter : Char} {tail : List Char},
      letter = 'x' ∨ letter = 'o' ∨ letter = 'b' →
      decimal value ++ c :: more ≠ '0' :: letter :: tail := by
    intro letter tail base same
    rcases decimal_head value with zero | ⟨d, others, start, other⟩
    · rw [zero] at same
      have after := (List.cons.inj (List.cons.inj same).2).1
      rcases base with rfl | rfl | rfl
      · exact hex after
      · exact oct after
      · exact bin after
    · rw [start] at same
      exact other (List.cons.inj same).1
  have fits : -((Nat.pow 2 63 : Nat) : Int) ≤ (value : Int) ∧ (value : Int) < (Nat.pow 2 63 : Nat) := by
    omega
  unfold integer
  split
  · rename_i same
    exact absurd same (noBase (Or.inl rfl))
  · rename_i same
    exact absurd same (noBase (Or.inr (Or.inl rfl)))
  · rename_i same
    exact absurd same (noBase (Or.inr (Or.inr rfl)))
  · rw [splitSign_decimal]
    simp only [taken, digitsValue_decimal]
    unfold integerTree
    exact if_pos fits

/-- An integer that is written in decimal is read back. -/
theorem number_decimal {value : Nat} (small : value < Nat.pow 2 63) (ends : Ends rest) :
    number (decimal value ++ rest) = .ok (.int value, rest) := by
  rcases dateTime_digits (isDigit_of_mem_decimal value) ends with ⟨stop, dated, clear⟩
  rcases float_decimal value ends with ⟨stop', floated, clear'⟩
  unfold number
  rw [dated]
  simp only [clear, Bool.false_eq_true, if_false, floated, clear']
  exact integer_decimal small ends

end Decimal

end RegisterBank.Document.Toml
