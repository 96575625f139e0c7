import RegisterBank.Document.Tree

/-!
# Assembling TOML tables

Keys with dots and table headers build a tree piece by piece.  Each table
remembers how it came to be, because that decides what may still be added: a
table with a header of its own is closed to dotted keys, one that only dotted
keys made is closed to headers, and one that a longer header implied takes
either.  A key is set once.
-/

namespace RegisterBank.Document.Toml

/-- How a table came to be. -/
inductive Origin where
  /-- By a header of its own, or as an element of an array of tables. -/
  | header
  /-- By a longer header. -/
  | implied
  /-- By a dotted key. -/
  | dotted
  deriving DecidableEq, Repr

/-- A part of the tree under assembly. -/
inductive Node where
  /-- A value, to which nothing can be added. -/
  | leaf (value : Tree)
  | table (origin : Origin) (entries : List (String × Node))
  /-- The elements of an array of tables, the latest first. -/
  | tables (elements : List (List (String × Node)))

/-- The entries of a table. -/
abbrev Entries := List (String × Node)

mutual

/-- The tree of a finished node. -/
def Node.toTree : Node → Tree
  | .leaf value => value
  | .table _ entries => .table (entriesTree entries)
  | .tables elements => .list (elementsTree elements [])

/-- The entries of a finished table. -/
def entriesTree : List (String × Node) → List (String × Tree)
  | [] => []
  | (key, node) :: rest => (key, node.toTree) :: entriesTree rest

/-- The elements of a finished array of tables, in the order of the text,
before those of `done`. -/
def elementsTree : List (List (String × Node)) → List Tree → List Tree
  | [], done => done
  | element :: rest, done => elementsTree rest (.table (entriesTree element) :: done)

end

/-- The entries after `change` was applied to the table that a path of keys
leads to, or nothing when the path or the change is refused.  Missing tables
on the way are made; an array of tables stands for its latest element. -/
def changeAt (viaDots : Bool) (change : Origin → Entries → Option Entries) :
    List String → Origin → Entries → Option Entries
  | [], origin, entries => change origin entries
  | key :: path, _, entries =>
    match lookup? key entries with
    | none =>
      let origin := if viaDots then .dotted else .implied
      (changeAt viaDots change path origin []).map fun inner =>
        insertEntry key (.table origin inner) entries
    | some (.leaf _) => none
    | some (.table origin inner) =>
      if viaDots ∧ origin = .header then none
      else
        (changeAt viaDots change path origin inner).map fun inner =>
          insertEntry key (.table origin inner) entries
    | some (.tables []) => none
    | some (.tables (latest :: earlier)) =>
      (changeAt viaDots change path .header latest).map fun latest =>
        insertEntry key (.tables (latest :: earlier)) entries

/-- The entries with a value set under a path of keys.  A dotted path may only
end in a table that dotted keys made, and a plain key never in one. -/
def setValue (path : List String) (key : String) (value : Tree) (entries : Entries) :
    Option Entries :=
  changeAt true
    (fun origin entries =>
      if (origin == .dotted) == path.isEmpty then none
      else if (lookup? key entries).isSome then none
      else some (insertEntry key (.leaf value) entries))
    path .header entries

/-- What a document says, one line at a time. -/
inductive Statement where
  /-- A value under a path of keys and a last key. -/
  | entry (path : List String) (key : String) (value : Tree)
  /-- The header of a table. -/
  | header (path : List String) (key : String)
  /-- The header of an element of an array of tables. -/
  | element (path : List String) (key : String)

/-- A document under assembly: the finished part, and the table that takes
entries, which is put into its place when the next header comes. -/
structure Outline where
  root : Entries
  current : Entries
  /-- Where the current table belongs; nothing for the root table itself. -/
  place : Option (List String × String)
  /-- Whether the current table is an element of an array of tables. -/
  isElement : Bool

namespace Outline

/-- The start of a document, in which entries go to the root table. -/
def empty : Outline := ⟨[], [], none, false⟩

/-- The root table with the current table put into its place. -/
def finish (outline : Outline) : Option Entries :=
  match outline.place with
  | none => some outline.current
  | some (path, key) =>
    changeAt false
      (fun _ entries =>
        if outline.isElement then
          match lookup? key entries with
          | some (.tables elements) =>
            some (insertEntry key (.tables (outline.current :: elements)) entries)
          | none => some (insertEntry key (.tables [outline.current]) entries)
          | some _ => none
        else
          match lookup? key entries with
          | none => some (insertEntry key (.table .header outline.current) entries)
          | some _ => none)
      path .header outline.root

/-- The node under a path of keys and a last key, where an array of tables
stands for its latest element. -/
def nodeAt? (entries : Entries) : List String → String → Option Node
  | [], key => lookup? key entries
  | step :: path, key =>
    match lookup? step entries with
    | some (.table _ inner) => nodeAt? inner path key
    | some (.tables (latest :: _)) => nodeAt? latest path key
    | _ => none

/-- The outline after the header of a table.  A table that longer headers
implied becomes the current one with what it holds. -/
def openTable (outline : Outline) (path : List String) (key : String) : Option Outline := do
  let root ← outline.finish
  let taken ← match nodeAt? root path key with
    | none => some []
    | some (.table .implied inner) => some inner
    | some _ => none
  let root ← changeAt false (fun _ entries => some (removeEntry key entries)) path .header root
  return ⟨root, taken, some (path, key), false⟩

/-- The outline after the header of an element of an array of tables. -/
def openElement (outline : Outline) (path : List String) (key : String) : Option Outline := do
  let root ← outline.finish
  let root ← changeAt false
    (fun _ entries =>
      match lookup? key entries with
      | none => some (insertEntry key (.tables []) entries)
      | some (.tables _) => some entries
      | some _ => none)
    path .header root
  return ⟨root, [], some (path, key), true⟩

/-- The outline after one statement, or nothing when it says something twice or
adds to what is closed. -/
def add (outline : Outline) : Statement → Option Outline
  | .entry path key value =>
    (setValue path key value outline.current).map fun current => { outline with current := current }
  | .header path key => outline.openTable path key
  | .element path key => outline.openElement path key

end Outline

/-- The tree of an inline table, whose entries obey the rules of any table. -/
def inlineTable? (entries : List (List String × String × Tree)) : Option Tree :=
  (entries.foldlM (fun done entry => setValue entry.1 entry.2.1 entry.2.2 done) []).map
    fun entries => .table (entriesTree entries)

end RegisterBank.Document.Toml
