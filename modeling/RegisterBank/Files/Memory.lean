import RegisterBank.Files.Path

/-!
# Files in memory

A list of files in the order of their components.  Of several paths with the
same components the one that was written first stays.
-/

namespace RegisterBank.Files

/-- Files in memory with their contents. -/
structure Memory where
  files : List (Path × String)
  deriving DecidableEq, Repr

namespace Memory

/-- No file. -/
def empty : Memory := ⟨[]⟩

/-- Whether two paths lead to the same file. -/
def samePath (first second : Path) : Bool := first.components == second.components

/-- The contents of a file. -/
def contents? (memory : Memory) (path : Path) : Option String :=
  (memory.files.find? fun file => samePath file.1 path).map Prod.snd

/-- The files of a list with one more or with other contents of one. -/
def insertFile (path : Path) (contents : String) : List (Path × String) → List (Path × String)
  | [] => [(path, contents)]
  | file :: rest =>
    match orderComponents path.components file.1.components with
    | .lt => (path, contents) :: file :: rest
    | .eq => (file.1, contents) :: rest
    | .gt => file :: insertFile path contents rest

/-- The files after a file is written. -/
def write (memory : Memory) (path : Path) (contents : String) : Memory :=
  ⟨insertFile path contents memory.files⟩

/-- The paths of the files, in order. -/
def paths (memory : Memory) : List Path := memory.files.map Prod.fst

end Memory

end RegisterBank.Files
