import RegisterBank.Proofs.Document.Plain

/-!
# Trees with a place for every table

In TOML a table inside the values of a line and a table under a header are
different things.  The documents of this project have the latter only: a value
on a line holds no table, and tables stand under their key alone or in a list
of nothing else.  Such trees are plain, so they suit every format.
-/

namespace RegisterBank.Document

/-- Values that a line of a document holds. -/
inductive Tree.Inline : Tree → Prop
  | bool (value : Bool) : Inline (.bool value)
  | int {value : Nat} : value < Nat.pow 2 63 → Inline (.int value)
  | text (value : String) : Inline (.text value)
  | list {items : List Tree} : (∀ item ∈ items, Inline item) → Inline (.list items)

/-- Keys of letters, digits, dashes and underscores, which no format has to quote. -/
def IsBare (key : String) : Prop :=
  key ≠ "" ∧ key.toList.all (fun c => c.isAlphanum || c == '-' || c == '_') = true

instance (key : String) : Decidable (IsBare key) := inferInstanceAs (Decidable (_ ∧ _))

/-- Entries whose keys are bare and stand once each. -/
structure SoundKeys (entries : List (String × Tree)) : Prop where
  bare : ∀ entry ∈ entries, IsBare entry.1
  nodup : (entries.map Prod.fst).Nodup

/-- Values of the entries of a document: values on a line, and tables and
arrays of tables under headers. -/
inductive Tree.Placed : Tree → Prop
  | inline {tree : Tree} : tree.Inline → Placed tree
  | table {entries : List (String × Tree)} : SoundKeys entries →
    (∀ entry ∈ entries, Placed entry.2) → Placed (.table entries)
  | tables {tables : List (List (String × Tree))} : tables ≠ [] →
    (∀ entries ∈ tables, SoundKeys entries) →
    (∀ entries ∈ tables, ∀ entry ∈ entries, Placed entry.2) → Placed (.list (tables.map .table))

theorem SoundKeys.of_keys {entries : List (String × Tree)} (keys : List String)
    (named : entries.map Prod.fst = keys) (bare : ∀ key ∈ keys, IsBare key) (nodup : keys.Nodup) :
    SoundKeys entries where
  bare := by
    intro entry listed
    refine bare entry.1 ?_
    rw [← named]
    exact List.mem_map_of_mem listed
  nodup := by
    rw [named]
    exact nodup

/-! ## Lists of tables -/

/-- The entries of a table. -/
def Tree.entries : Tree → List (String × Tree)
  | .table entries => entries
  | _ => []

/-- A list of tables has a place, also when it is empty and stands on a line. -/
theorem placed_tables {items : List Tree}
    (tables : ∀ item ∈ items, item = .table item.entries ∧ item.Placed) :
    (Tree.list items).Placed := by
  have same : (items.map Tree.entries).map Tree.table = items := by
    rw [List.map_map]
    exact (List.map_congr_left fun item listed => (tables item listed).1.symm).trans
      (List.map_id items)
  cases items with
  | nil => exact .inline (.list fun item listed => absurd listed List.not_mem_nil)
  | cons item items =>
    have keyed : ∀ entries ∈ (item :: items).map Tree.entries,
        SoundKeys entries ∧ ∀ entry ∈ entries, entry.2.Placed := by
      intro entries member
      obtain ⟨found, listed, rfl⟩ := List.mem_map.mp member
      rcases tables found listed with ⟨isTable, placed⟩
      rw [isTable] at placed
      cases placed with
      | inline inline => cases inline
      | table keys placed => exact ⟨keys, placed⟩
    rw [← same]
    exact .tables (by simp) (fun entries member => (keyed entries member).1)
      fun entries member => (keyed entries member).2

/-! ## Plain trees -/

theorem plain_of_inline {tree : Tree} (inline : tree.Inline) : tree.Plain := by
  induction inline with
  | bool => trivial
  | int small =>
    rw [Tree.Plain]
    omega
  | text => trivial
  | list _ ih => exact itemsPlain_of_forall ih

/-- What has its place in a document is plain. -/
theorem plain_of_placed {tree : Tree} (placed : tree.Placed) : tree.Plain := by
  induction placed with
  | inline inline => exact plain_of_inline inline
  | table _ _ ih => exact entriesPlain_of_forall ih
  | tables _ _ _ ih =>
    refine itemsPlain_of_forall ?_
    intro item listed
    obtain ⟨entries, member, rfl⟩ := List.mem_map.mp listed
    exact entriesPlain_of_forall (ih entries member)

end RegisterBank.Document
