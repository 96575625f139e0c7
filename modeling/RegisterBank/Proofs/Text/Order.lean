import RegisterBank.Text.Order

/-!
# The order of texts is linear

Two texts that neither comes before are the same, and the order goes on from
one text to the next.
-/

namespace RegisterBank.Text

theorem orderChars_self (text : List Char) : orderChars text text = .eq := by
  induction text with
  | nil => rfl
  | cons c rest ih => rw [orderChars, if_neg (Nat.lt_irrefl _), if_neg (Nat.lt_irrefl _), ih]

theorem eq_of_orderChars_eq {first second : List Char} (same : orderChars first second = .eq) :
    first = second := by
  induction first generalizing second with
  | nil =>
    cases second with
    | nil => rfl
    | cons d others => cases same
  | cons c rest ih =>
    cases second with
    | nil => cases same
    | cons d others =>
      rw [orderChars] at same
      split at same
      · cases same
      · split at same
        · cases same
        · have code : c.toNat = d.toNat := by omega
          rw [ih same, Char.toNat_inj.mp code]

/-- A text that comes before another has that one behind it. -/
theorem orderChars_swap (first second : List Char) :
    orderChars first second = .lt ↔ orderChars second first = .gt := by
  induction first generalizing second with
  | nil =>
    cases second with
    | nil => simp [orderChars]
    | cons d others => simp [orderChars]
  | cons c rest ih =>
    cases second with
    | nil => simp [orderChars]
    | cons d others =>
      rw [orderChars, orderChars]
      by_cases below : c.toNat < d.toNat
      · rw [if_pos below, if_neg (by omega), if_pos below]
        simp
      · rw [if_neg below]
        by_cases above : d.toNat < c.toNat
        · rw [if_pos above, if_pos above]
          simp
        · rw [if_neg above, if_neg above, if_neg below]
          exact ih others

/-- The order of texts is transitive. -/
theorem orderChars_trans {first second third : List Char} (low : orderChars first second = .lt)
    (high : orderChars second third = .lt) : orderChars first third = .lt := by
  induction first generalizing second third with
  | nil =>
    cases third with
    | nil => cases second <;> cases high
    | cons e more => rfl
  | cons c rest ih =>
    cases second with
    | nil => cases low
    | cons d others =>
      cases third with
      | nil => cases high
      | cons e more =>
        rw [orderChars] at low high ⊢
        by_cases below : c.toNat < e.toNat
        · rw [if_pos below]
        -- Either comparison is decided at this character, or both go on to the rest.
        · split at low
          · split at high
            · omega
            · split at high
              · cases high
              · omega
          · split at low
            · cases low
            · split at high
              · omega
              · split at high
                · cases high
                · rw [if_neg below, if_neg (by omega)]
                  exact ih low high

/-! ## Texts -/

/-- Only a text itself compares equal to it. -/
theorem order_eq_iff {first second : String} : order first second = .eq ↔ first = second := by
  refine ⟨?_, ?_⟩
  · intro same
    exact String.toList_inj.mp (eq_of_orderChars_eq same)
  · rintro rfl
    exact orderChars_self _

/-- Comparing in the other direction turns the answer around. -/
theorem order_lt_iff_gt {first second : String} :
    order first second = .lt ↔ order second first = .gt :=
  orderChars_swap _ _

theorem order_lt_trans {first second third : String} (low : order first second = .lt)
    (high : order second third = .lt) : order first third = .lt :=
  orderChars_trans low high

/-- Of two texts one comes before the other. -/
theorem order_lt_or_gt {first second : String} (apart : first ≠ second) :
    order first second = .lt ∨ order first second = .gt := by
  cases compared : order first second with
  | lt => exact Or.inl rfl
  | eq => exact absurd (order_eq_iff.mp compared) apart
  | gt => exact Or.inr rfl

end RegisterBank.Text
