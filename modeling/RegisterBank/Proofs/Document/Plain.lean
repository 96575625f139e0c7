import RegisterBank.Document.Tree

/-!
# Plain trees

The trees that every format writes without loss.  Null and floating-point
numbers are not among them, nor are integers that are negative or above the
largest signed one: documents have larger integers as texts.
-/

namespace RegisterBank.Document

mutual

/-- What both formats can write and read back as it is: truth values, texts,
integers up to the largest signed one, and lists and tables of such trees. -/
def Tree.Plain : Tree → Prop
  | .null => False
  | .bool _ => True
  | .int value => 0 ≤ value ∧ value < (Nat.pow 2 63 : Nat)
  | .float _ => False
  | .text _ => True
  | .list items => ItemsPlain items
  | .table entries => EntriesPlain entries

/-- All items of a list are plain. -/
def ItemsPlain : List Tree → Prop
  | [] => True
  | item :: rest => item.Plain ∧ ItemsPlain rest

/-- The values of all entries of a table are plain. -/
def EntriesPlain : List (String × Tree) → Prop
  | [] => True
  | (_, value) :: rest => value.Plain ∧ EntriesPlain rest

end

mutual

/-- How many lists and tables stand inside each other. -/
def Tree.depth : Tree → Nat
  | .list items => itemsDepth items + 1
  | .table entries => entriesDepth entries + 1
  | _ => 0

/-- The depth of the deepest item of a list. -/
def itemsDepth : List Tree → Nat
  | [] => 0
  | item :: rest => max item.depth (itemsDepth rest)

/-- The depth of the deepest value of a table. -/
def entriesDepth : List (String × Tree) → Nat
  | [] => 0
  | (_, value) :: rest => max value.depth (entriesDepth rest)

end

theorem itemsPlain_of_forall {items : List Tree} (plain : ∀ item ∈ items, item.Plain) :
    ItemsPlain items := by
  induction items with
  | nil => trivial
  | cons item rest ih =>
    refine ⟨plain item List.mem_cons_self, ih ?_⟩
    intro other listed
    exact plain other (List.mem_cons_of_mem _ listed)

theorem entriesPlain_of_forall {entries : List (String × Tree)}
    (plain : ∀ entry ∈ entries, entry.2.Plain) : EntriesPlain entries := by
  induction entries with
  | nil => trivial
  | cons entry rest ih =>
    refine ⟨plain entry List.mem_cons_self, ih ?_⟩
    intro other listed
    exact plain other (List.mem_cons_of_mem _ listed)

theorem itemsDepth_le_of_forall {items : List Tree} {bound : Nat}
    (shallow : ∀ item ∈ items, item.depth ≤ bound) : itemsDepth items ≤ bound := by
  induction items with
  | nil => exact Nat.zero_le bound
  | cons item rest ih =>
    refine Nat.max_le.mpr ⟨shallow item List.mem_cons_self, ih ?_⟩
    intro other listed
    exact shallow other (List.mem_cons_of_mem _ listed)

/-- No entry is deeper than the table that holds it. -/
theorem depth_le_entriesDepth {entries : List (String × Tree)} {entry : String × Tree}
    (listed : entry ∈ entries) : entry.2.depth ≤ entriesDepth entries := by
  induction entries with
  | nil => cases listed
  | cons other rest ih =>
    rw [entriesDepth]
    rcases List.mem_cons.mp listed with rfl | later
    · exact Nat.le_max_left _ _
    · exact Nat.le_trans (ih later) (Nat.le_max_right _ _)

theorem depth_le_itemsDepth {items : List Tree} {item : Tree} (listed : item ∈ items) :
    item.depth ≤ itemsDepth items := by
  induction items with
  | nil => cases listed
  | cons other rest ih =>
    rw [itemsDepth]
    rcases List.mem_cons.mp listed with rfl | later
    · exact Nat.le_max_left _ _
    · exact Nat.le_trans (ih later) (Nat.le_max_right _ _)

/-- The trees right inside a tree. -/
def Tree.children : Tree → List Tree
  | .list items => items
  | .table entries => entries.map Prod.snd
  | _ => []

/-- Trees inside a tree are smaller, which the induction below goes by. -/
theorem Tree.sizeOf_children {tree inner : Tree} (inside : inner ∈ tree.children) :
    sizeOf inner < sizeOf tree := by
  cases tree with
  | list items =>
    have smaller := List.sizeOf_lt_of_mem (show inner ∈ items from inside)
    rw [Tree.list.sizeOf_spec]
    omega
  | table entries =>
    obtain ⟨⟨key, value⟩, listed, rfl⟩ := List.mem_map.mp inside
    have smaller := List.sizeOf_lt_of_mem listed
    rw [Prod.mk.sizeOf_spec] at smaller
    rw [Tree.table.sizeOf_spec]
    show sizeOf value < 1 + sizeOf entries
    omega
  | _ => exact absurd inside List.not_mem_nil

/-- What a tree has if all trees right inside it have it, all trees have. -/
theorem Tree.induct {holds : Tree → Prop}
    (step : ∀ tree, (∀ inner ∈ tree.children, holds inner) → holds tree) (tree : Tree) :
    holds tree :=
  step tree fun inner _ => Tree.induct step inner
termination_by sizeOf tree
decreasing_by exact Tree.sizeOf_children ‹_›

end RegisterBank.Document
