import RegisterBank.Files.Memory
import RegisterBank.Proofs.Text.Order

/-!
# Writing to files in memory

Writing a file gives that file its contents, under every path that leads to it,
and touches no other (`gains_write`).  The files are kept in the order of their
paths, and the order takes two paths for one exactly if they have the same
components (`orderComponents_eq_iff`).
-/

namespace RegisterBank.Files

/-! ## Equal paths -/

/-- Components that compare equal are equal. -/
theorem Component.order_eq_iff {first second : Component} :
    first.order second = .eq ↔ first = second := by
  constructor
  · intro same
    unfold order at same
    split at same
    · cases same
    · split at same
      · cases same
      · have texts := Text.order_eq_iff.mp same
        have ranks : first.rank = second.rank := by omega
        cases first <;> cases second <;> simp_all [rank, text]
  · intro same
    subst same
    unfold order
    rw [if_neg (Nat.lt_irrefl _), if_neg (Nat.lt_irrefl _)]
    exact Text.order_eq_iff.mpr rfl

/-- Paths that compare equal have the same components. -/
theorem orderComponents_eq_iff {first second : List Component} :
    orderComponents first second = .eq ↔ first = second := by
  induction first generalizing second with
  | nil =>
    cases second with
    | nil => exact iff_of_true rfl rfl
    | cons _ _ => exact iff_of_false nofun nofun
  | cons head rest ih =>
    cases second with
    | nil => exact iff_of_false nofun nofun
    | cons head' rest' =>
      unfold orderComponents
      rw [Ordering.then_eq_eq, Component.order_eq_iff, ih, List.cons.injEq]

namespace Memory

/-- Paths name one file when their components are the same, whatever their
spelling. -/
theorem samePath_iff {first second : Path} :
    samePath first second = true ↔ first.components = second.components :=
  beq_iff_eq

/-! ## Writing -/

/-- Files with a text written to a path. -/
structure Gains (before after : Memory) (path : Path) (text : String) : Prop where
  /-- The path leads to the text, and no other file is touched. -/
  contents : ∀ other, after.contents? other =
    if samePath path other then some text else before.contents? other
  /-- One file is new, or has the text in place of earlier contents. -/
  files : ∃ front back,
    (before.files = front ++ back ∧ after.files = front ++ (path, text) :: back) ∨
    ∃ known earlier, samePath known path ∧
      before.files = front ++ (known, earlier) :: back ∧
      after.files = front ++ (known, text) :: back

theorem contents?_cons (file : Path × String) (rest : List (Path × String)) (other : Path) :
    contents? ⟨file :: rest⟩ other =
      if samePath file.1 other then some file.2 else contents? ⟨rest⟩ other := by
  unfold contents?
  rw [List.find?_cons]
  cases samePath file.1 other with
  | true => rfl
  | false => rfl

/-- Writing a file changes what is read at its path and at no other. -/
theorem contents?_insertFile (path other : Path) (text : String) (files : List (Path × String)) :
    contents? ⟨insertFile path text files⟩ other =
      if samePath path other then some text else contents? ⟨files⟩ other := by
  induction files with
  | nil => exact contents?_cons _ _ _
  | cons file rest ih =>
    unfold insertFile
    cases compared : orderComponents path.components file.1.components with
    | lt => exact contents?_cons _ _ _
    | eq =>
      have same : samePath file.1 other = samePath path other := by
        unfold samePath
        rw [orderComponents_eq_iff.mp compared]
      dsimp only
      rw [contents?_cons, contents?_cons, same]
      cases samePath path other with
      | true => rfl
      | false => rfl
    | gt =>
      dsimp only
      rw [contents?_cons, contents?_cons, ih]
      cases here : samePath file.1 other with
      | true =>
        -- The file is another than the one that is written.
        have apart : samePath path other = false := by
          rw [← Bool.not_eq_true, samePath_iff, ← samePath_iff.mp here]
          intro same
          rw [orderComponents_eq_iff.mpr same] at compared
          cases compared
        rw [apart]
        rfl
      | false => rfl

/-- A file is put in at one place: a new entry, or the contents of an entry with
the same path. -/
theorem insertFile_eq (path : Path) (text : String) (files : List (Path × String)) :
    ∃ front back,
      (files = front ++ back ∧ insertFile path text files = front ++ (path, text) :: back) ∨
      ∃ known earlier, samePath known path ∧
        files = front ++ (known, earlier) :: back ∧
        insertFile path text files = front ++ (known, text) :: back := by
  induction files with
  | nil => exact ⟨[], [], .inl ⟨rfl, rfl⟩⟩
  | cons file rest ih =>
    unfold insertFile
    cases compared : orderComponents path.components file.1.components with
    | lt => exact ⟨[], file :: rest, .inl ⟨rfl, rfl⟩⟩
    | eq =>
      have same := samePath_iff.mpr (orderComponents_eq_iff.mp compared).symm
      exact ⟨[], rest, .inr ⟨file.1, file.2, same, rfl, rfl⟩⟩
    | gt =>
      obtain ⟨front, back, added | ⟨known, earlier, same, before, after⟩⟩ := ih
      · refine ⟨file :: front, back, .inl ⟨?_, ?_⟩⟩
        · exact congrArg (List.cons file) added.1
        · exact congrArg (List.cons file) added.2
      · refine ⟨file :: front, back, .inr ⟨known, earlier, same, ?_, ?_⟩⟩
        · exact congrArg (List.cons file) before
        · exact congrArg (List.cons file) after

/-- Writing a file gives it its contents and touches no other. -/
theorem gains_write (memory : Memory) (path : Path) (text : String) :
    memory.Gains (memory.write path text) path text where
  contents := fun other => contents?_insertFile path other text memory.files
  files := insertFile_eq path text memory.files

end Memory

end RegisterBank.Files
