import RegisterBank.Error

/-!
# Results of several steps

A sequence of steps succeeds if each of them does.
-/

namespace RegisterBank

variable {α β : Type}

theorem ok_bind (value : α) (next : α → Result β) :
    ((Except.ok value : Result α) >>= next) = next value :=
  rfl

/-- What succeeds in two steps succeeded in the first. -/
theorem exists_of_bind_eq_ok {first : Result α} {next : α → Result β} {result : β}
    (done : (first >>= next) = .ok result) :
    ∃ value, first = .ok value ∧ next value = .ok result := by
  cases first with
  | error error => cases done
  | ok value => exact ⟨value, rfl, done⟩

theorem bind_eq_ok_iff {first : Result α} {next : α → Result β} {result : β} :
    (first >>= next) = .ok result ↔ ∃ value, first = .ok value ∧ next value = .ok result := by
  constructor
  · exact exists_of_bind_eq_ok
  · rintro ⟨value, done, rest⟩
    rw [done]
    exact rest

/-- What fails in two steps failed in one of them. -/
theorem exists_of_bind_eq_error {first : Result α} {next : α → Result β} {error : Error}
    (failed : (first >>= next) = .error error) :
    first = .error error ∨ ∃ value, first = .ok value ∧ next value = .error error := by
  cases first with
  | error earlier =>
    cases failed
    exact .inl rfl
  | ok value => exact .inr ⟨value, rfl, failed⟩

/-- Where it does not depend on the state whether a step succeeds, a walk over a
list succeeds exactly if each of its steps does. -/
theorem exists_foldlM_iff {σ α : Type} {step : σ → α → Result σ} {fine : α → Prop}
    (each : ∀ state element, (∃ next, step state element = .ok next) ↔ fine element)
    (elements : List α) (state : σ) :
    (∃ next, elements.foldlM step state = .ok next) ↔ ∀ element ∈ elements, fine element := by
  induction elements generalizing state with
  | nil => exact iff_of_true ⟨state, rfl⟩ (List.forall_mem_nil _)
  | cons element rest ih =>
    rw [List.forall_mem_cons, List.foldlM_cons]
    constructor
    · intro ⟨result, done⟩
      obtain ⟨next, stepped, later⟩ := exists_of_bind_eq_ok done
      exact ⟨(each state element).mp ⟨next, stepped⟩, (ih next).mp ⟨result, later⟩⟩
    · intro ⟨here, others⟩
      obtain ⟨next, stepped⟩ := (each state element).mpr here
      obtain ⟨result, later⟩ := (ih next).mpr others
      refine ⟨result, ?_⟩
      rw [stepped, ok_bind]
      exact later

end RegisterBank
