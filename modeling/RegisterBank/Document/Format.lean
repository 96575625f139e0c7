import RegisterBank.Document.Tree
import RegisterBank.Text.Position

/-!
# Document formats

The two formats in which a document is written.  Texts are parsed and printed by
libraries, of which nothing is known here: a `Codec` is what they do, and any of
it may fail.  What both formats have in common is done on top of it.  A text is
read to a tree or has a problem at a position, and a tree is rendered to a text
that ends with a line break.
-/

namespace RegisterBank.Document

/-- The format of a document. -/
inductive Format where
  | json
  | toml
  deriving DecidableEq, Repr

namespace Format

/-- The ending of a file's name that stands for the format. -/
def extension : Format → String
  | .json => "json"
  | .toml => "toml"

/-- The format with a name. -/
def ofWord? (word : String) : Option Format :=
  [json, toml].find? fun format => format.extension == word

end Format

/-- What the libraries for documents do.  A failure says why. -/
structure Codec where
  /-- The tree of a JSON text, or the position at which it goes wrong. -/
  parseJson : String → Except (Text.Position × String) Tree
  /-- The tree of a TOML text, or the byte at which it goes wrong, where one is
  named. -/
  parseToml : String → Except (Option Nat × String) Tree
  /-- The text of a tree in JSON, over several lines. -/
  printJson : Tree → Except String String
  /-- The text of a tree in TOML. -/
  printToml : Tree → Except String String
  /-- Data that becomes part of a tree. -/
  convert : Tree → Except String Tree
  /-- A tree as messages show it. -/
  shown : Tree → String

/-- A text that ends with a line break: one is added if there is none. -/
def endLine (text : String) : String :=
  if text.toList.getLast? = some '\n' then text else text ++ "\n"

namespace Codec

/-- The tree that a text writes, or where it goes wrong and why.  The place in a
TOML text is a byte, and line and column are 0 where no byte is named. -/
def read (codec : Codec) (format : Format) (text : String) : Except (Text.Position × String) Tree :=
  match format with
  | .json => codec.parseJson text
  | .toml =>
    match codec.parseToml text with
    | .ok tree => .ok tree
    | .error (some offset, reason) => .error (Text.lineColumn text offset, reason)
    | .error (none, reason) => .error (⟨0, 0⟩, reason)

/-- The text of a tree as the library for its format prints it. -/
def print (codec : Codec) (format : Format) (tree : Tree) : Except String String :=
  match format with
  | .json => codec.printJson tree
  | .toml => codec.printToml tree

/-- The text of a document, which ends with a line break, or why there is none. -/
def render (codec : Codec) (format : Format) (tree : Tree) : Except String String := do
  return endLine (← codec.print format tree)

end Codec

end RegisterBank.Document
