import RegisterBank.Files.Path

/-!
# Files in directories

A tree of directories with files in them, seen from a directory in which
relative paths start.  A file is written only where its directory exists and no
directory has its name.  Absolute paths lead out of the tree, where nothing is
found.
-/

namespace RegisterBank.Files

/-- The name of the directory that holds a directory. -/
def parentName : String := ".."

/-- Directories and files, each under the names that lead to it.  Names that
lead out of the start begin with those of the steps up. -/
structure Directory where
  directories : List (List String)
  files : List (List String × String)
  deriving DecidableEq, Repr

namespace Directory

/-- Neither a directory below the start nor a file. -/
def empty : Directory := ⟨[], []⟩

/-! ## Places -/

/-- Whether names only lead up.  What they lead to exists. -/
def isUpward (names : List String) : Bool := names.all fun name => name == parentName

/-- The names of the directory that holds a directory. -/
def holder (names : List String) : List String :=
  if isUpward names then parentName :: names else names.dropLast

/-- Whether names lead to a directory. -/
def isDirectory (tree : Directory) (names : List String) : Bool :=
  isUpward names || tree.directories.contains names

/-- The contents of the file that names lead to. -/
def file? (tree : Directory) (names : List String) : Option String :=
  (tree.files.find? fun file => file.1 == names).map Prod.snd

/-- The directory that a component leads to from a directory. -/
def enter? (tree : Directory) (current : List String) : Component → Option (List String)
  | .root => none
  | .current => some current
  | .parent => some (holder current)
  | .name text =>
    if tree.isDirectory (current ++ [text]) then some (current ++ [text]) else none

/-! ## Limits -/

/-- One more than the bytes that a path may have. -/
def pathLimit : Nat := 4096

/-- The bytes of the path of the start from the root. -/
def startBytes : Nat := 15

/-- The bytes of the name under which a file is written before it takes the
place of an earlier one. -/
def stageBytes : Nat := 10

/-- Whether a file may have a name: at most 255 bytes are stored, and no zero
byte among them. -/
def isStorable (name : String) : Bool := name.utf8ByteSize ≤ 255 && !name.toList.contains '\x00'

/-- Whether a path is short enough to be followed. -/
def isShort (path : Path) : Bool := path.text.utf8ByteSize < pathLimit

/-- Whether the path from the root of what is first written, in the directory
of the file, is short enough. -/
def isStageShort (path : Path) : Bool :=
  startBytes + 1 + path.directory.text.utf8ByteSize + 1 + stageBytes < pathLimit

/-! ## Reading and writing -/

/-- The names that lead to the file at a path, which may or may not exist, if
its directory does.  A path that ends with a slash or with dots is no path of a
file. -/
def place? (tree : Directory) (path : Path) : Option (List String) :=
  match path.pieces.getLast?.bind pieceComponent?, path.fileName? with
  | some (.name _), some name => do
    guard (isShort path && isStorable name)
    let directory ← path.components.dropLast.foldlM tree.enter? []
    guard (!tree.isDirectory (directory ++ [name]))
    return directory ++ [name]
  | _, _ => none

/-- The contents of the file at a path. -/
def contents? (tree : Directory) (path : Path) : Option String :=
  (tree.place? path).bind tree.file?

/-- A list of files with one more or with other contents of one. -/
def insertFile (names : List String) (contents : String) :
    List (List String × String) → List (List String × String)
  | [] => [(names, contents)]
  | file :: rest =>
    if file.1 = names then (names, contents) :: rest
    else file :: insertFile names contents rest

/-- The tree after a file is written, if it can be. -/
def write? (tree : Directory) (path : Path) (contents : String) : Option Directory := do
  guard (isStageShort path)
  let names ← tree.place? path
  return { tree with files := insertFile names contents tree.files }

/-! ## Preparing a tree -/

/-- The directory that components lead to from a directory, and the tree with
the directories on the way that it did not have. -/
def make? (tree : Directory) (current : List String) :
    List Component → Option (List String × Directory)
  | [] => some (current, tree)
  | .root :: _ => none
  | .current :: rest => tree.make? current rest
  | .parent :: rest => tree.make? (holder current) rest
  | .name text :: rest =>
    let names := current ++ [text]
    if tree.isDirectory names then tree.make? names rest
    else make? { tree with directories := tree.directories ++ [names] } names rest

/-- A tree with a file and the directories that lead to it.  A path that ends
with a slash makes a directory. -/
def prepare (tree : Directory) (path : Path) (contents : String) : Directory :=
  if path.pieces.getLast? = some [] then
    match tree.make? [] path.components with
    | some (_, tree) => tree
    | none => tree
  else
    match tree.make? [] path.components.dropLast, path.fileName? with
    | some (directory, tree), some name =>
      { tree with files := insertFile (directory ++ [name]) contents tree.files }
    | _, _ => tree

/-! ## Listing -/

/-- The files below the start, in the order of their paths' bytes. -/
def listing (tree : Directory) : List (Path × String) :=
  let inside := tree.files.filter fun file => file.1.head? != some parentName
  (inside.map fun (names, contents) => (⟨"/".intercalate names⟩, contents)).mergeSort
    fun (first, _) (second, _) => Text.order first.text second.text != .gt

end Directory

end RegisterBank.Files
