import RegisterBank.Files.Directory
import RegisterBank.Files.Event
import RegisterBank.Files.Memory

/-!
# Sessions

A session is a store of files and the events so far.  An action works on a
session and may fail; what it did to the session before that stays.
-/

namespace RegisterBank.Files

/-- A store of files. -/
inductive Store where
  | memory (files : Memory)
  | disk (tree : Directory)
  deriving DecidableEq, Repr

namespace Store

/-- The contents of a file. -/
def read (store : Store) (path : Path) : Result String :=
  match store with
  | .memory files =>
    match files.contents? path with
    | some contents => .ok contents
    | none => .error (.file path.text .missing)
  | .disk tree =>
    match tree.contents? path with
    | some contents => .ok contents
    | none => .error (.file path.text .refused)

/-- The store after a file is written.  A failed write leaves no trace. -/
def write (store : Store) (path : Path) (contents : String) : Result Store :=
  match store with
  | .memory files => .ok (.memory (files.write path contents))
  | .disk tree =>
    match tree.write? path contents with
    | some tree => .ok (.disk tree)
    | none => .error (.file path.text .refused)

/-- What a write to the store tells. -/
def writeEvents (store : Store) (path : Path) (contents : String) : List Event :=
  match store with
  | .memory _ => []
  | .disk _ => [.fileWritten contents.utf8ByteSize path]

/-- The files with their contents. -/
def listing : Store → List (Path × String)
  | .memory files => files.files
  | .disk tree => tree.listing

end Store

/-- A store of files and the events so far. -/
structure Session where
  store : Store
  events : List Event
  deriving DecidableEq, Repr

/-- Work on a session, which may fail. -/
abbrev Action (α : Type) := ExceptT Error (StateM Session) α

namespace Action

/-- Tell some events. -/
def tell (events : List Event) : Action Unit :=
  modify fun session => { session with events := session.events ++ events }

/-- The value of a result, or its failure. -/
def ofResult {α : Type} (result : Result α) : Action α := ExceptT.mk (pure result)

/-- The contents of a file. -/
def read (path : Path) : Action String := do ofResult ((← get).store.read path)

/-- Write a file. -/
def write (path : Path) (contents : String) : Action Unit := do
  let store := (← get).store
  let after ← ofResult (store.write path contents)
  modify fun session => { session with store := after }
  tell (store.writeEvents path contents)

end Action

end RegisterBank.Files
