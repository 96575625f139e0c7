import RegisterBank.Document.Tree

/-!
# Trees as readers list them

A reader puts the entries of a table in the order of their keys, whatever the
order in the text, so what it gives back of a written tree is the sorted one.
Lists keep their order.
-/

namespace RegisterBank.Document

mutual

/-- The tree with the entries of all its tables in key order. -/
def Tree.sorted : Tree → Tree
  | .list items => .list (sortedItems items)
  | .table entries => Tree.ofEntries (sortedEntries entries)
  | tree => tree

/-- The items of a list, each sorted. -/
def sortedItems : List Tree → List Tree
  | [] => []
  | item :: rest => item.sorted :: sortedItems rest

/-- The entries of a table in their order, each with its value sorted. -/
def sortedEntries : List (String × Tree) → List (String × Tree)
  | [] => []
  | (key, value) :: rest => (key, value.sorted) :: sortedEntries rest

end

/-- Elements are sorted one by one and keep their order. -/
theorem sortedItems_eq_map (items : List Tree) : sortedItems items = items.map Tree.sorted := by
  induction items with
  | nil => rfl
  | cons item rest ih => rw [sortedItems, ih, List.map_cons]

/-- Sorting goes on inside each entry's value. -/
theorem sortedEntries_eq_map (entries : List (String × Tree)) :
    sortedEntries entries = entries.map (Prod.map id Tree.sorted) := by
  induction entries with
  | nil => rfl
  | cons entry rest ih =>
    rw [sortedEntries, ih]
    rfl

theorem sortedItems_map_text (words : List String) :
    sortedItems (words.map Tree.text) = words.map Tree.text := by
  rw [sortedItems_eq_map, List.map_map]
  rfl

end RegisterBank.Document
