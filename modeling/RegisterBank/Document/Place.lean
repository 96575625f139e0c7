/-!
# Places in a document

A place leads from the root of a document to one of its nodes: through
attributes of tables and entries of lists.  Messages show it with the name of
an entry behind its index, where the entry has one.
-/

namespace RegisterBank.Document

/-- One step from a node to a node inside it. -/
inductive PlaceStep where
  /-- To the value under a key. -/
  | member (key : String)
  /-- To an entry of a list, which may have a name. -/
  | entry (index : Nat) (name? : Option String)
  deriving DecidableEq, Repr

/-- A node of a document: what the first node is called, and the steps from
there. -/
structure Place where
  start : String
  steps : List PlaceStep
  deriving DecidableEq, Repr

namespace PlaceStep

/-- The step as a place shows it. -/
def text : PlaceStep → String
  | .member key => "." ++ key
  | .entry index none => s!"[{index}]"
  | .entry index (some name) => s!"[{index}]({name})"

end PlaceStep

namespace Place

/-- The place that a name stands for. -/
def named (start : String) : Place := ⟨start, []⟩

/-- The value under a key of the node. -/
def member (place : Place) (key : String) : Place :=
  { place with steps := place.steps ++ [.member key] }

/-- An entry of the list at the node. -/
def entry (place : Place) (index : Nat) (name? : Option String) : Place :=
  { place with steps := place.steps ++ [.entry index name?] }

/-- The place as messages show it. -/
def text (place : Place) : String :=
  place.steps.foldl (fun shown step => shown ++ step.text) place.start

end Place

end RegisterBank.Document
