import Mathlib.Data.List.Perm.Basic
import RegisterBank.Proofs.Construction.Workbench

/-!
# Lists of fields for a register

A register takes a list of fields one by one and stops at the first that it
refuses.  Each field is only held against those before it, but whether two
fields may stand together does not depend on which comes first.  So a list is
taken exactly if no two of its fields clash (`Register.addFields_eq_ok_iff`),
which is the same for every order of the list, and a list that is refused is
refused at the first field that clashes with an earlier one
(`Register.exists_clash_of_addFields_error`).
-/

namespace RegisterBank

namespace Field

theorem Apart.symm {field other : Field} (apart : field.Apart other) : other.Apart field :=
  ⟨apart.1.symm, BitRange.Apart.symm apart.2⟩

/-- Fields may stand together if their names differ and their ranges share no
bit, each on its own. -/
theorem pairwise_apart_iff {fields : List Field} :
    fields.Pairwise Apart ↔
      (fields.map Field.name).Nodup ∧ (fields.map Field.bits).Pairwise BitRange.Apart := by
  unfold List.Nodup
  rw [List.pairwise_map, List.pairwise_map, ← List.pairwise_and_iff]
  rfl

end Field

namespace Register

variable {register : Register} {added : List Field}

/-! ## Lists that are taken -/

/-- Valid fields are taken exactly if each keeps apart from those that the
register has and from those before it in the list. -/
theorem addFields_eq_ok_iff (valid : ∀ field ∈ register.fields, field.Valid)
    (addedValid : ∀ field ∈ added, field.Valid) :
    (register.addFields added).2 = .ok () ↔
      (∀ existing ∈ register.fields, ∀ field ∈ added, existing.Apart field) ∧
        added.Pairwise Field.Apart := by
  induction added generalizing register with
  | nil => simp [addFields]
  | cons first rest ih =>
    obtain ⟨firstValid, restValid⟩ := List.forall_mem_cons.mp addedValid
    have alone : register.addField first = .ok (register.extended [first]) ↔ _ :=
      addField_eq_ok_iff valid firstValid
    unfold addFields
    cases tried : register.addField first with
    | error error =>
      rw [tried] at alone
      constructor
      · intro taken
        cases taken
      · intro apart
        have done := alone.mpr
          ⟨fun existing listed => apart.1 existing listed first List.mem_cons_self, rfl⟩
        cases done
    | ok next =>
      have reached := eq_extended_of_addField tried
      subst reached
      obtain ⟨fits, -⟩ := alone.mp tried
      have extendedValid : ∀ field ∈ (register.extended [first]).fields, field.Valid :=
        List.forall_mem_append.mpr ⟨valid, List.forall_mem_singleton.mpr firstValid⟩
      -- The first field now counts among those that the rest is held against.
      have split : (∀ existing ∈ (register.extended [first]).fields, ∀ field ∈ rest,
          existing.Apart field) ↔
            (∀ existing ∈ register.fields, ∀ field ∈ rest, existing.Apart field) ∧
              ∀ field ∈ rest, first.Apart field := by
        unfold extended
        rw [List.forall_mem_append, List.forall_mem_singleton]
      rw [ih extendedValid restValid, split, List.pairwise_cons, and_assoc]
      refine and_congr_left fun _ => ?_
      constructor
      · intro apart existing listed
        exact List.forall_mem_cons.mpr ⟨fits existing listed, apart existing listed⟩
      · intro apart existing listed
        exact (List.forall_mem_cons.mp (apart existing listed)).2

/-! ## Lists that are refused -/

/-- A field is refused beside the first of the register's fields that it clashes
with, and for that reason. -/
theorem exists_clash_of_addField_error {field : Field} {error : Error}
    (refused : register.addField field = .error error) :
    ∃ earlier ∈ register.fields, ∃ problem,
      register.clash? field earlier = some problem ∧ error = .conflict problem := by
  unfold addField at refused
  cases found : register.fields.findSome? (register.clash? field) with
  | none =>
    rw [found] at refused
    cases refused
  | some problem =>
    rw [found] at refused
    cases refused
    obtain ⟨earlier, listed, clash⟩ := List.exists_of_findSome?_eq_some found
    exact ⟨earlier, listed, problem, clash, rfl⟩

/-- A list for a register without fields is refused at the first field that
clashes with an earlier one. -/
theorem exists_clash_of_addFields_error {error : Error} (bare : register.fields = [])
    (addedValid : ∀ field ∈ added, field.Valid)
    (stopped : (register.addFields added).2 = .error error) :
    ∃ taken refused rest, added = taken ++ refused :: rest ∧ taken.Pairwise Field.Apart ∧
      (register.addFields added).1 = { register with fields := taken } ∧
      ∃ earlier ∈ taken, ¬ earlier.Apart refused ∧
        ∃ problem, register.clash? refused earlier = some problem ∧ error = .conflict problem := by
  obtain ⟨taken, refused, rest, rfl, accepted, reason, left⟩ :=
    exists_of_addFields_error (Prod.ext rfl stopped)
  obtain ⟨takenValid, behindValid⟩ := List.forall_mem_append.mp addedValid
  have own : ∀ field ∈ register.fields, field.Valid := by
    rw [bare]
    exact List.forall_mem_nil _
  have apart := (addFields_eq_ok_iff own takenValid).mp (congrArg Prod.snd accepted)
  have same : register.extended taken = { register with fields := taken } := by
    unfold extended
    rw [bare, List.nil_append]
  rw [same] at reason left
  obtain ⟨earlier, listed, problem, clash, rfl⟩ := exists_clash_of_addField_error reason
  refine ⟨taken, refused, rest, rfl, apart.2, left, earlier, listed, ?_, problem, clash, rfl⟩
  intro free
  have fine : register.clash? refused earlier = none :=
    (clash?_eq_none_iff (takenValid earlier listed) (behindValid refused List.mem_cons_self)).mpr
      free
  cases fine.symm.trans clash

/-! ## Every list -/

/-- **A list of fields is taken exactly if no two of them clash**, whatever their
order: the names differ, and of two ranges one ends where the other starts or
before.  If it is refused, it is refused at the first field that clashes with
an earlier one; the fields before that one stay. -/
theorem addFields_accepts_iff {fields : List Field} (bare : register.fields = [])
    (valid : ∀ field ∈ fields, field.Valid) :
    ((register.addFields fields).2 = .ok () ↔
      (fields.map Field.name).Nodup ∧
        (fields.map Field.bits).Pairwise fun range other =>
          range.lsb + range.width ≤ other.lsb ∨ other.lsb + other.width ≤ range.lsb) ∧
    (∀ order, order.Perm fields →
      ((register.addFields order).2 = .ok () ↔ (register.addFields fields).2 = .ok ())) ∧
    ∀ error, (register.addFields fields).2 = .error error →
      ∃ taken refused rest, fields = taken ++ refused :: rest ∧ taken.Pairwise Field.Apart ∧
        (register.addFields fields).1 = { register with fields := taken } ∧
        ∃ earlier ∈ taken, ¬ earlier.Apart refused ∧
          ∃ problem, register.clash? refused earlier = some problem ∧
            error = .conflict problem := by
  have taken {order : List Field} (orderValid : ∀ field ∈ order, field.Valid) :
      (register.addFields order).2 = .ok () ↔ order.Pairwise Field.Apart := by
    rw [addFields_eq_ok_iff (by rw [bare]; exact List.forall_mem_nil _) orderValid, bare]
    exact and_iff_right (List.forall_mem_nil _)
  refine ⟨(taken valid).trans Field.pairwise_apart_iff, ?_, ?_⟩
  · intro order same
    rw [taken valid, taken fun field listed => valid field (same.mem_iff.mp listed)]
    exact same.pairwise_iff Field.Apart.symm
  · exact fun error stopped => exists_clash_of_addFields_error bare valid stopped

/-- Fields that meet at bit 63, at bit 32 and nowhere else, and one more that
reaches over bit 32. -/
def meeting : List Field :=
  [⟨"top", "", ⟨63, 1⟩, .readOnly, 0, .none⟩, ⟨"low", "", ⟨0, 32⟩, .readWrite, 0, .none⟩,
    ⟨"high", "", ⟨32, 31⟩, .writeOnly, 0, .none⟩, ⟨"across", "", ⟨31, 2⟩, .readWrite, 0, .none⟩]

theorem meeting_valid : ∀ field ∈ meeting, field.Valid := by
  have made (name : String) (lsb width : Nat) (access : Access) {field : Field}
      (done : Field.make name lsb width access = .ok field) : field.Valid := .of_make done
  unfold meeting
  simp only [List.forall_mem_cons]
  exact ⟨made "top" 63 1 .readOnly rfl, made "low" 0 32 .readWrite rfl,
    made "high" 32 31 .writeOnly rfl, made "across" 31 2 .readWrite rfl, List.forall_mem_nil _⟩

/-- A register without fields. -/
def bareRegister : Register := ⟨"r", "", none, []⟩

theorem addFields_accepts_iff_meeting :
    (bareRegister.addFields (meeting.take 3)).2 = .ok () ∧
      (bareRegister.addFields (meeting.take 3).reverse).2 = .ok () ∧
      (bareRegister.addFields meeting).2 =
        conflict (.fieldsOverlap "r" "across" ⟨31, 2⟩ "low" ⟨0, 32⟩) ∧
      ∃ taken refused rest, meeting = taken ++ refused :: rest ∧ taken.Pairwise Field.Apart ∧
        ∃ earlier ∈ taken, ¬ earlier.Apart refused := by
  have bare : bareRegister.fields = [] := rfl
  have firstValid : ∀ field ∈ meeting.take 3, field.Valid :=
    fun field listed => meeting_valid field (List.mem_of_mem_take listed)
  have three := addFields_accepts_iff bare firstValid
  have taken := three.1.mpr (by decide)
  obtain ⟨before, refused, rest, split, apart, -, earlier, listed, clash, -⟩ :=
    (addFields_accepts_iff bare meeting_valid).2.2 _ rfl
  exact ⟨taken, (three.2.1 _ (List.reverse_perm _)).mpr taken, rfl,
    before, refused, rest, split, apart, earlier, listed, clash⟩

end Register

end RegisterBank
