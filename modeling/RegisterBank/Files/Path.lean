import RegisterBank.Error
import RegisterBank.Text.SnakeCase

/-!
# Paths

A path is kept as it is written, and two paths lead to the same file if they
have the same components: repeated and final slashes do not count, nor does a
dot that stands for a directory itself, unless the path starts with it.
-/

namespace RegisterBank.Files

/-- A step that a path takes. -/
inductive Component where
  /-- The start of an absolute path. -/
  | root
  /-- A dot at the start of a relative path. -/
  | current
  | parent
  | name (text : String)
  deriving DecidableEq, Repr

namespace Component

/-- The place of a component among different kinds of components. -/
def rank : Component → Nat
  | .root => 0
  | .current => 1
  | .parent => 2
  | .name _ => 3

/-- The name of a component, empty for those that have none. -/
def text : Component → String
  | .name text => text
  | _ => ""

/-- Components in order: by kind, and names among each other by their bytes. -/
def order (first second : Component) : Ordering :=
  if first.rank < second.rank then .lt
  else if second.rank < first.rank then .gt
  else Text.order first.text second.text

end Component

/-- Lists of components in order, a list before those that it starts. -/
def orderComponents : List Component → List Component → Ordering
  | [], [] => .eq
  | [], _ :: _ => .lt
  | _ :: _, [] => .gt
  | first :: rest, second :: others => (first.order second).then (orderComponents rest others)

/-- A path as it is written. -/
structure Path where
  text : String
  deriving DecidableEq, Repr

/-- The pieces of a text between slashes; there is always one more piece than
there are slashes. -/
def splitSlashes : List Char → List (List Char)
  | [] => [[]]
  | char :: rest =>
    if char = '/' then [] :: splitSlashes rest
    else
      match splitSlashes rest with
      | piece :: pieces => (char :: piece) :: pieces
      | [] => [[char]]

/-- The component that a piece stands for; none for an empty piece and for a
dot. -/
def pieceComponent? (piece : List Char) : Option Component :=
  if piece = [] ∨ piece = ['.'] then none
  else if piece = ['.', '.'] then some .parent
  else some (.name (String.ofList piece))

namespace Path

/-- The pieces of the path between slashes. -/
def pieces (path : Path) : List (List Char) := splitSlashes path.text.toList

/-- Whether the path starts at the root. -/
def isAbsolute (path : Path) : Bool := path.text.toList.head? == some '/'

/-- What the path starts with before its pieces count. -/
def start (path : Path) : List Component :=
  if path.isAbsolute then [.root]
  else if path.pieces.head? = some ['.'] then [.current]
  else []

/-- The components of the path. -/
def components (path : Path) : List Component :=
  path.start ++ path.pieces.filterMap pieceComponent?

/-- Pieces up to the last that stands for a component. -/
def trimPieces (pieces : List (List Char)) : List (List Char) :=
  (pieces.reverse.dropWhile fun piece => (pieceComponent? piece).isNone).reverse

/-- The directory of the path's file as the path writes it, without slashes and
dots that count for nothing at its end; a dot if the path writes none. -/
def directory (path : Path) : Path :=
  match trimPieces (trimPieces path.pieces).dropLast with
  | [] => ⟨"."⟩
  | pieces => ⟨"/".intercalate (pieces.map String.ofList)⟩

/-! ## Names -/

/-- The name that the path ends with. -/
def fileName? (path : Path) : Option String :=
  match path.components.getLast? with
  | some (.name text) => some text
  | _ => none

/-- A name before and after its last dot.  A dot at the start is a part of the
name. -/
def splitName (name : String) : String × Option String :=
  let reversed := name.toList.reverse
  let after := reversed.takeWhile (· != '.')
  match reversed.drop after.length with
  | [] | [_] => (name, none)
  | _ :: before => (String.ofList before.reverse, some (String.ofList after.reverse))

/-- The final name without its extension. -/
def stem? (path : Path) : Option String := path.fileName?.map fun name => (splitName name).1

/-- The extension of the final name. -/
def extension? (path : Path) : Option String := path.fileName?.bind fun name => (splitName name).2

/-- The format of a document at the path, by its extension in letters of any
case. -/
def format (path : Path) : Result Document.Format :=
  orConfigError (.unknownFormat path.text)
    (path.extension?.bind fun ending => Document.Format.ofWord? (Text.lowerCase ending))

/-- The path of a file in a directory.  The empty path is the directory that
all relative paths start in. -/
def join (directory : Path) (name : String) : Path :=
  match directory.text.toList.getLast? with
  | none => ⟨name⟩
  | some '/' => ⟨directory.text ++ name⟩
  | some _ => ⟨directory.text ++ "/" ++ name⟩

end Path

end RegisterBank.Files
