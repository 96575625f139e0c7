import RegisterBank.Number.Binary64
import RegisterBank.Text.Order

/-!
# Document trees

The content of a document, whatever format it was written in.  Readers list
the keys of a table in the order of their characters, each key once; writers
keep the order that a tree gives.
-/

namespace RegisterBank.Document

/-- The content of a document. -/
inductive Tree where
  | null
  | bool (value : Bool)
  | int (value : Int)
  | float (value : Number.Binary64)
  | text (value : String)
  | list (items : List Tree)
  | table (entries : List (String × Tree))
  deriving Repr

/-- The value of the first entry with a key. -/
def lookup? {α : Type} (key : String) (entries : List (String × α)) : Option α :=
  (entries.find? fun entry => entry.1 == key).map Prod.snd

/-- An entry put in its place among entries in key order; an entry with the
same key gives way to it. -/
def insertEntry {α : Type} (key : String) (value : α) :
    List (String × α) → List (String × α)
  | [] => [(key, value)]
  | entry :: rest =>
    match Text.order key entry.1 with
    | .lt => (key, value) :: entry :: rest
    | .eq => (key, value) :: rest
    | .gt => entry :: insertEntry key value rest

/-- The entries without the one with a key. -/
def removeEntry {α : Type} (key : String) (entries : List (String × α)) :
    List (String × α) :=
  entries.filter fun entry => entry.1 != key

namespace Tree

/-- What kind of content a tree is, in words. -/
def kind : Tree → String
  | .null => "null"
  | .bool _ => "a boolean"
  | .int _ | .float _ => "a number"
  | .text _ => "a string"
  | .list _ => "an array"
  | .table _ => "a table"

/-- Whether a tree is a table. -/
def isTable : Tree → Bool
  | .table _ => true
  | _ => false

/-- The value under a key of a table. -/
def get? (key : String) : Tree → Option Tree
  | .table entries => lookup? key entries
  | _ => none

/-- The text that a tree is. -/
def text? : Tree → Option String
  | .text value => some value
  | _ => none

/-- A table of entries that may stand in any order; the last entry of a key
counts. -/
def ofEntries (entries : List (String × Tree)) : Tree :=
  .table (entries.foldl (fun sorted entry => insertEntry entry.1 entry.2 sorted) [])

end Tree

end RegisterBank.Document
