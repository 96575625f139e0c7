import Mathlib.Data.List.Forall2
import RegisterBank.Bank.Machine

/-!
# Lists side by side

A machine keeps one cell for each field of its plan, in the same order, so
plan and machine are two lists with a relation along them.  What the machine
does to all of its elements, to the first that passes a test, or to the one it
finds by a key, is moved along such lists here.
-/

namespace RegisterBank.Bank

section Change

variable {α β : Type} {R S : α → β → Prop} {change : β → β} {as : List α} {bs : List β}

theorem forall₂_imp_of_mem (keeps : ∀ a ∈ as, ∀ b, R a b → S a b)
    (related : List.Forall₂ R as bs) : List.Forall₂ S as bs := by
  induction related with
  | nil => exact .nil
  | @cons a b as bs head _ ih =>
    refine .cons (keeps a List.mem_cons_self b head) (ih ?_)
    exact fun other listed => keeps other (List.mem_cons_of_mem _ listed)

theorem forall₂_imp_of_mem_both (keeps : ∀ a ∈ as, ∀ b ∈ bs, R a b → S a b)
    (related : List.Forall₂ R as bs) : List.Forall₂ S as bs := by
  have inside : List.Forall₂ (fun a b => b ∈ bs ∧ R a b) as bs :=
    (forall₂_imp_of_mem (fun b listed a here => And.intro listed here) related.flip).flip
  exact forall₂_imp_of_mem (fun a listed b here => keeps a listed b here.1 here.2) inside

/-- Two lists along a third are one if their elements have the same partners. -/
theorem eq_of_forall₂ {bs' : List β} (same : ∀ a ∈ as, ∀ b b', R a b → S a b' → b = b')
    (left : List.Forall₂ R as bs) (right : List.Forall₂ S as bs') : bs = bs' := by
  induction left generalizing bs' with
  | nil =>
    cases right
    rfl
  | @cons a b as bs head _ ih =>
    cases right with
    | @cons _ b' _ bs' head' tail' =>
      rw [same a List.mem_cons_self b b' head head',
        ih (fun other listed => same other (List.mem_cons_of_mem _ listed)) tail']

theorem map_eq_of_forall₂ {κ : Type} {key : α → κ} {name : β → κ}
    (named : ∀ a b, R a b → name b = key a) (related : List.Forall₂ R as bs) :
    bs.map name = as.map key := by
  rw [← List.forall₂_eq_eq_eq, List.forall₂_map_left_iff, List.forall₂_map_right_iff]
  exact (related.imp named).flip

/-- A relation along two lists outlasts a change that keeps it. -/
theorem forall₂_map_right (keeps : ∀ a ∈ as, ∀ b, R a b → S a (change b))
    (related : List.Forall₂ R as bs) : List.Forall₂ S as (bs.map change) := by
  rw [List.forall₂_map_right_iff]
  exact forall₂_imp_of_mem keeps related

theorem forall₂_changeFirst {test : β → Bool} (keeps : ∀ a b, R a b → R a (change b))
    (related : List.Forall₂ R as bs) :
    List.Forall₂ R as (Machine.changeFirst test change bs) := by
  induction related with
  | nil => exact .nil
  | @cons a b as bs head tail ih =>
    unfold Machine.changeFirst
    cases test b with
    | true => exact .cons (keeps a b head) tail
    | false => exact .cons head ih

theorem forall_mem_changeFirst {holds : β → Prop} {test : β → Bool}
    (keeps : ∀ element, holds element → holds (change element))
    (all : ∀ element ∈ bs, holds element) :
    ∀ element ∈ Machine.changeFirst test change bs, holds element := by
  induction bs with
  | nil => exact all
  | cons first rest ih =>
    obtain ⟨here, others⟩ := List.forall_mem_cons.mp all
    unfold Machine.changeFirst
    split
    · exact List.forall_mem_cons.mpr ⟨keeps first here, others⟩
    · exact List.forall_mem_cons.mpr ⟨here, ih others⟩

theorem flatMap_eq_of_forall₂ {γ : Type} {left : α → List γ} {right : β → List γ}
    (same : ∀ a ∈ as, ∀ b, R a b → left a = right b) (related : List.Forall₂ R as bs) :
    as.flatMap left = bs.flatMap right := by
  induction related with
  | nil => rfl
  | @cons a b as bs head _ ih =>
    rw [List.flatMap_cons, List.flatMap_cons, same a List.mem_cons_self b head,
      ih fun other listed => same other (List.mem_cons_of_mem _ listed)]

/-- Partners that pass the same test and are mapped to the same. -/
theorem filter_map_eq_of_forall₂ {γ : Type} {test : α → Bool} {test' : β → Bool}
    {left : α → γ} {right : β → γ} (tests : ∀ a ∈ as, ∀ b, R a b → test a = test' b)
    (same : ∀ a ∈ as, ∀ b, R a b → test a = true → left a = right b)
    (related : List.Forall₂ R as bs) :
    (as.filter test).map left = (bs.filter test').map right := by
  induction related with
  | nil => rfl
  | @cons a b as bs head _ ih =>
    have tail := ih (fun other listed => tests other (List.mem_cons_of_mem _ listed))
      fun other listed => same other (List.mem_cons_of_mem _ listed)
    have passes := tests a List.mem_cons_self b head
    cases here : test a with
    | true =>
      rw [List.filter_cons_of_pos here, List.filter_cons_of_pos (passes.symm.trans here),
        List.map_cons, List.map_cons, tail, same a List.mem_cons_self b head here]
    | false =>
      have fails : test' b = false := passes.symm.trans here
      rw [List.filter_cons_of_neg (by rw [here]; exact Bool.false_ne_true),
        List.filter_cons_of_neg (by rw [fails]; exact Bool.false_ne_true), tail]

end Change

section Find

variable {α β κ : Type} [DecidableEq κ] {R S : α → β → Prop} {key : α → κ} {name : β → κ}
  {as : List α} {bs : List β}

/-- Along two related lists, a search by a key that tells the first list's
elements apart finds the partner of an element. -/
theorem find?_of_forall₂ (named : ∀ a b, R a b → name b = key a)
    (related : List.Forall₂ R as bs) (distinct : (as.map key).Nodup) {a : α} (listed : a ∈ as) :
    ∃ b, bs.find? (fun other => name other == key a) = some b ∧ R a b := by
  induction related with
  | nil => cases listed
  | @cons first partner as bs head _ ih =>
    rw [List.map_cons, List.nodup_cons] at distinct
    have same := named first partner head
    rcases List.mem_cons.mp listed with rfl | behind
    · refine ⟨partner, ?_, head⟩
      rw [List.find?_cons_of_pos]
      rw [same]
      exact beq_self_eq_true _
    · rcases ih distinct.2 behind with ⟨b, found, matched⟩
      refine ⟨b, ?_, matched⟩
      rw [List.find?_cons_of_neg]
      · exact found
      · rw [same, beq_iff_eq]
        intro equal
        rw [equal] at distinct
        exact distinct.1 (List.mem_map_of_mem behind)

theorem find?_of_nodup (distinct : (as.map key).Nodup) {a : α} (listed : a ∈ as) :
    as.find? (fun other => key other == key a) = some a := by
  have related : List.Forall₂ (fun first second => first = second) as as :=
    List.forall₂_same.mpr fun _ _ => rfl
  have named : ∀ first second, first = second → key second = key first :=
    fun first second same => by rw [same]
  rcases find?_of_forall₂ named related distinct listed with ⟨found, here, same⟩
  rw [here, same]

/-- Along two related lists, the partner of an element is what a search by its key
finds. -/
theorem forall₂_find? (named : ∀ a b, R a b → name b = key a) (related : List.Forall₂ R as bs)
    (distinct : (as.map key).Nodup) :
    List.Forall₂ (fun a b => R a b ∧ bs.find? (fun other => name other == key a) = some b)
      as bs := by
  rw [← map_eq_of_forall₂ named related] at distinct
  refine forall₂_imp_of_mem_both ?_ related
  intro a _ b listed matched
  rw [← named a b matched]
  exact ⟨matched, find?_of_nodup distinct listed⟩

theorem find?_eq_none_of_forall₂ (named : ∀ a b, R a b → name b = key a)
    (related : List.Forall₂ R as bs) {wanted : κ} (missing : ∀ a ∈ as, key a ≠ wanted) :
    bs.find? (fun other => name other == wanted) = none := by
  induction related with
  | nil => rfl
  | @cons first partner as bs head _ ih =>
    rw [List.find?_cons_of_neg]
    · exact ih fun a listed => missing a (List.mem_cons_of_mem _ listed)
    · rw [named first partner head, beq_iff_eq]
      exact missing first List.mem_cons_self

/-- Of elements that are told apart by a key, only the one with the wanted key
changes its partner. -/
theorem forall₂_changeFirst_key {change : β → β} {wanted : κ}
    (named : ∀ a b, R a b → name b = key a) (distinct : (as.map key).Nodup)
    (changed : ∀ a ∈ as, ∀ b, R a b → key a = wanted → S a (change b))
    (others : ∀ a ∈ as, ∀ b, R a b → key a ≠ wanted → S a b)
    (related : List.Forall₂ R as bs) :
    List.Forall₂ S as (Machine.changeFirst (fun other => name other == wanted) change bs) := by
  induction related with
  | nil => exact .nil
  | @cons a b as bs head tail ih =>
    rw [List.map_cons, List.nodup_cons] at distinct
    unfold Machine.changeFirst
    rw [named a b head]
    by_cases own : key a = wanted
    · rw [if_pos (beq_iff_eq.mpr own)]
      refine .cons (changed a List.mem_cons_self b head own) (forall₂_imp_of_mem ?_ tail)
      intro other listed partner matched
      refine others other (List.mem_cons_of_mem _ listed) partner matched ?_
      intro same
      rw [own, ← same] at distinct
      exact distinct.1 (List.mem_map_of_mem listed)
    · rw [if_neg fun same => own (beq_iff_eq.mp same)]
      refine .cons (others a List.mem_cons_self b head own) (ih distinct.2 ?_ ?_)
      · exact fun other listed => changed other (List.mem_cons_of_mem _ listed)
      · exact fun other listed => others other (List.mem_cons_of_mem _ listed)

theorem exists_of_mem_right (related : List.Forall₂ R as bs) {b : β} (listed : b ∈ bs) :
    ∃ a ∈ as, R a b := by
  induction related with
  | nil => cases listed
  | @cons first partner as bs head _ ih =>
    rcases List.mem_cons.mp listed with rfl | behind
    · exact ⟨first, List.mem_cons_self, head⟩
    · rcases ih behind with ⟨a, member, matched⟩
      exact ⟨a, List.mem_cons_of_mem _ member, matched⟩

/-- What holds between the elements of one list holds between their partners. -/
theorem pairwise_of_forall₂ {S : α → α → Prop} {T : β → β → Prop}
    (transfers : ∀ a b a' b', R a b → R a' b' → S a a' → T b b')
    (related : List.Forall₂ R as bs) (pairs : as.Pairwise S) : bs.Pairwise T := by
  induction related with
  | nil => exact List.Pairwise.nil
  | cons head tail ih =>
    obtain ⟨first, pairs⟩ := List.pairwise_cons.mp pairs
    refine List.Pairwise.cons ?_ (ih pairs)
    intro b listed
    rcases exists_of_mem_right tail listed with ⟨a, member, matched⟩
    exact transfers _ _ _ _ head matched (first a member)

end Find

end RegisterBank.Bank
