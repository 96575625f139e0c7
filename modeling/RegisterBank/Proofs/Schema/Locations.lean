import RegisterBank.Schema.MapDocument

/-!
# Locations in register map documents

A reader that refuses a document names a place, and it puts the name of that
place together on its way.  Here the nodes that a document can have are listed
without any reader: its tables (`Holder`), what stands under their keys, and the
modifiers (`Location`).  Each location has a node, or none, in a given tree, and
a way to be shown.  `Faulty` says what may be wrong with a node.

What a reader expects of a node is a `Kind`.  The five functions that expect
something refuse a node for the reasons of its kind (`Kind.Refuses`), so all of
them are blamed on a location in the same way (`Sited.blames`).
-/

namespace RegisterBank.Schema

open RegisterBank.Document

/-! ## Nodes -/

/-- A table of a register map document: the document itself, a register, or a
bit field of a register. -/
inductive Holder where
  | root
  | register (i : Nat)
  | field (i j : Nat)
  deriving DecidableEq, Repr

/-- A node of a register map document: a table, what stands under a key of one,
or a modifier of a bit field. -/
inductive Location where
  | whole (holder : Holder)
  | under (holder : Holder) (key : String)
  | modifier (i j k : Nat)
  deriving DecidableEq, Repr

/-- An item of a list. -/
def itemOf? (i : Nat) : Tree → Option Tree
  | .list items => items[i]?
  | _ => none

/-- The entry of a register. -/
def registerNode? (tree : Tree) (i : Nat) : Option Tree :=
  (tree.get? registersKey).bind (itemOf? i)

/-- The entry of a bit field. -/
def fieldNode? (tree : Tree) (i j : Nat) : Option Tree :=
  ((registerNode? tree i).bind (Tree.get? "bitfields")).bind (itemOf? j)

/-- The node of a table. -/
def Holder.node? (tree : Tree) : Holder → Option Tree
  | .root => some tree
  | .register i => registerNode? tree i
  | .field i j => fieldNode? tree i j

/-- The node at a location. -/
def Location.node? (tree : Tree) : Location → Option Tree
  | .whole holder => holder.node? tree
  | .under holder key => (holder.node? tree).bind (Tree.get? key)
  | .modifier i j k => ((fieldNode? tree i j).bind (Tree.get? "modifiers")).bind (itemOf? k)

/-- The register that a table belongs to. -/
def Holder.register? : Holder → Option Nat
  | .root => none
  | .register i => some i
  | .field i _ => some i

/-- The register that a location is in. -/
def Location.register? : Location → Option Nat
  | .whole holder => holder.register?
  | .under holder _ => holder.register?
  | .modifier i _ _ => some i

/-! ## How locations are shown -/

/-- An index in brackets. -/
def indexText (i : Nat) : String := "[" ++ toString i ++ "]"

/-- The name of an entry in parentheses, if it has one that is a text. -/
def nameText (entry : Option Tree) : String :=
  match entry.bind (Tree.get? "name") with
  | some (.text name) => "(" ++ name ++ ")"
  | _ => ""

/-- A register is shown by its index and its name. -/
def registerPath (tree : Tree) (i : Nat) : String :=
  registersKey ++ indexText i ++ nameText (registerNode? tree i)

/-- So is a bit field, behind its register. -/
def fieldPath (tree : Tree) (i j : Nat) : String :=
  registerPath tree i ++ ".bitfields" ++ indexText j ++ nameText (fieldNode? tree i j)

/-- The document goes by its own name. -/
def Holder.path (document : String) (tree : Tree) : Holder → String
  | .root => document
  | .register i => registerPath tree i
  | .field i j => fieldPath tree i j

/-- A key stands behind its table, but the list of the registers stands alone.
A modifier is shown by its index only. -/
def Location.path (document : String) (tree : Tree) : Location → String
  | .whole holder => holder.path document tree
  | .under .root key => if key = registersKey then registersKey else document ++ "." ++ key
  | .under holder key => holder.path document tree ++ "." ++ key
  | .modifier i j k => fieldPath tree i j ++ ".modifiers" ++ indexText k

/-! ## What may be wrong -/

/-- What is expected of a node. -/
inductive Kind where
  | table
  | list
  | text
  /-- An integer that is not negative. -/
  | integer
  /-- One below `2 ^ 32`. -/
  | small
  deriving DecidableEq, Repr

/-- The kind as messages show it. -/
def Kind.shown : Kind → String
  | .table => "a table"
  | .list => "an array"
  | .text => "a string"
  | .integer | .small => "an integer"

/-- Whether a tree may be of a kind.  Integers may be written as texts. -/
def Kind.fits : Kind → Tree → Bool
  | .table, .table _ => true
  | .list, .list _ => true
  | .text, .text _ => true
  | .integer, .int _ | .integer, .float _ | .integer, .text _ => true
  | .small, .int _ | .small, .float _ | .small, .text _ => true
  | _, _ => false

/-- Why a tree is not of a kind. -/
inductive Kind.Refuses : Kind → Tree → SchemaProblem → Prop
  | wrongKind {kind : Kind} {found : Tree} :
    kind.fits found = false → Refuses kind found (.wrongKind kind.shown found)
  | notUnsigned {kind : Kind} {found : Tree} :
    kind ∈ [Kind.integer, .small] → kind.fits found = true → unsigned? found = none →
      Refuses kind found (.notUnsigned found)
  | outOfRange {found : Tree} {value : Nat} :
    unsigned? found = some value → Nat.pow 2 32 ≤ value → Refuses .small found (.outOfRange value)

/-- The keys that a table may have, and what is expected under them. -/
def Holder.kinds : Holder → List (String × Kind)
  | .root => [(registersKey, .list)]
  | .register _ =>
    [("name", .text), ("description", .text), ("address", .integer), ("bitfields", .list)]
  | .field _ _ =>
    [("name", .text), ("description", .text), ("lsb", .small), ("width", .small),
      ("access", .text), ("initial", .integer), ("modifiers", .list)]

/-- The keys that a table may have. -/
def Holder.allowed (holder : Holder) : List String := holder.kinds.map Prod.fst

/-- The keys that a table must have. -/
def Holder.required : Holder → List String
  | .root => []
  | .register _ => ["name"]
  | .field _ _ => ["name", "lsb", "width", "access"]

/-- What is expected at a location. -/
def Location.kind? : Location → Option Kind
  | .whole _ => some .table
  | .under holder key => lookup? key holder.kinds
  | .modifier _ _ _ => some .text

/-- A problem is what is wrong with the node at a location: it is not as it
should be, or it should not be there, or it lacks something. -/
inductive Faulty (tree : Tree) : Location → SchemaProblem → Prop
  | refused {location : Location} {kind : Kind} {found : Tree} {problem : SchemaProblem} :
    location.node? tree = some found → location.kind? = some kind → kind.Refuses found problem →
      Faulty tree location problem
  | unknown {holder : Holder} {key : String} {found : Tree} :
    (Location.under holder key).node? tree = some found → key ∉ holder.allowed →
      Faulty tree (.under holder key) (.unknownAttribute key holder.allowed)
  | missing {holder : Holder} {key : String} {entries : List (String × Tree)} :
    (Location.whole holder).node? tree = some (.table entries) → key ∈ holder.required →
      lookup? key entries = none → Faulty tree (.whole holder) (.missingAttribute key)

/-- A failure that is blamed on a location. -/
structure Blames (document : String) (tree : Tree) (place : Place) (problem : SchemaProblem)
    (location : Location) : Prop where
  path : place.text = location.path document tree
  faulty : Faulty tree location problem

/-! ## Places of locations -/

section Places

variable (place : Place)

theorem text_member (key : String) : (place.member key).text = place.text ++ "." ++ key := by
  unfold Place.text Place.member
  rw [List.foldl_append, List.foldl_cons, List.foldl_nil, PlaceStep.text, String.append_assoc]

theorem text_entry (index : Nat) (name? : Option String) :
    (place.entry index name?).text = place.text ++ (PlaceStep.entry index name?).text := by
  unfold Place.text Place.entry
  rw [List.foldl_append, List.foldl_cons, List.foldl_nil]

theorem text_entry_none (index : Nat) :
    (place.entry index none).text = place.text ++ indexText index :=
  text_entry place index none

/-- An entry is shown as its location is. -/
theorem text_entryPlace (index : Nat) (found : Tree) :
    (entryPlace place index found).text = place.text ++ indexText index ++ nameText (some found) := by
  have named : (PlaceStep.entry index ((found.get? "name").bind Tree.text?)).text =
      indexText index ++ nameText (some found) := by
    unfold nameText
    rw [Option.bind_some]
    cases found.get? "name" with
    | none => exact (String.append_empty).symm
    | some name =>
      cases name with
      | text name =>
        apply String.toList_inj.mp
        simp [PlaceStep.text, indexText, Tree.text?, toString]
      | _ => exact (String.append_empty).symm
  unfold entryPlace
  rw [text_entry, named, String.append_assoc]

end Places

/-- A reader is at a location: it has the node, and its place is shown as the
location is. -/
structure Sited (document : String) (tree : Tree) (place : Place) (location : Location)
    (found : Tree) : Prop where
  node : location.node? tree = some found
  path : place.text = location.path document tree

namespace Sited

variable {document : String} {tree : Tree} {place : Place} {found : Tree}

theorem root : Sited document tree (.named document) (.whole .root) tree := ⟨rfl, rfl⟩

/-- The list of registers lies under its key. -/
theorem registers {entries : List (String × Tree)}
    (given : lookup? registersKey entries = some found) :
    Sited document (.table entries) (.named registersKey) (.under .root registersKey) found :=
  ⟨given, rfl⟩

/-- What stands under a key, unless it is the list of the registers. -/
theorem under {holder : Holder} {entries : List (String × Tree)} {key : String}
    (sited : Sited document tree place (.whole holder) (.table entries))
    (given : lookup? key entries = some found) (other : holder = .root → key ≠ registersKey) :
    Sited document tree (place.member key) (.under holder key) found where
  node := by
    have node : holder.node? tree = some (.table entries) := sited.node
    rw [Location.node?, node]
    exact given
  path := by
    rw [text_member, sited.path]
    cases holder with
    | root => exact (if_neg (other rfl)).symm
    | register i => rfl
    | field i j => rfl

variable {items : List Tree}

/-- An element of the list is a register, by its name if it has one. -/
theorem register {i : Nat}
    (sited : Sited document tree place (.under .root registersKey) (.list items))
    (listed : items[i]? = some found) :
    Sited document tree (entryPlace place i found) (.whole (.register i)) found := by
  have node : registerNode? tree i = some found := by
    have list : tree.get? registersKey = some (.list items) := sited.node
    unfold registerNode?
    rw [list]
    exact listed
  refine ⟨node, ?_⟩
  rw [text_entryPlace, sited.path, ← node]
  rfl

/-- An element of a register's list is a field. -/
theorem field {i j : Nat}
    (sited : Sited document tree place (.under (.register i) "bitfields") (.list items))
    (listed : items[j]? = some found) :
    Sited document tree (entryPlace place j found) (.whole (.field i j)) found := by
  have node : fieldNode? tree i j = some found := by
    have list : (registerNode? tree i).bind (Tree.get? "bitfields") = some (.list items) :=
      sited.node
    unfold fieldNode?
    rw [list]
    exact listed
  have path : (Location.under (.register i) "bitfields").path document tree =
      registerPath tree i ++ ".bitfields" :=
    String.append_assoc
  refine ⟨node, ?_⟩
  rw [text_entryPlace, sited.path, path, ← node]
  rfl

/-- An element of a field's list is a modifier, which is known by its index
alone. -/
theorem modifier {i j k : Nat}
    (sited : Sited document tree place (.under (.field i j) "modifiers") (.list items))
    (listed : items[k]? = some found) :
    Sited document tree (place.entry k none) (.modifier i j k) found := by
  have list : (fieldNode? tree i j).bind (Tree.get? "modifiers") = some (.list items) := sited.node
  have path : (Location.under (.field i j) "modifiers").path document tree =
      fieldPath tree i j ++ ".modifiers" :=
    String.append_assoc
  refine ⟨?_, ?_⟩
  · rw [Location.node?, list]
    exact listed
  · rw [text_entry_none, sited.path, path]
    rfl

/-- A node that is refused for what it is takes the blame for it. -/
theorem blames {location : Location} {kind : Kind} {problem : SchemaProblem}
    (sited : Sited document tree place location found) (expected : location.kind? = some kind)
    (refused : kind.Refuses found problem) : Blames document tree place problem location :=
  ⟨sited.path, .refused sited.node expected refused⟩

end Sited

end RegisterBank.Schema
