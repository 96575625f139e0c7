import RegisterBank.Document.Format
import RegisterBank.Document.Json.Printer
import RegisterBank.Document.Json.Reader
import RegisterBank.Document.Toml.Printer
import RegisterBank.Document.Toml.Reader

/-!
# The codec that programs run with

Readers and printers of JSON and TOML in place of the libraries.  They never fail
to print, and a problem of a TOML text is told by its position alone.
-/

namespace RegisterBank.Document

/-- A problem of a JSON text as messages word it, with its position. -/
def Json.Problem.reason (problem : Json.Problem) (position : Text.Position) : String :=
  s!"{problem.message} at line {position.line} column {position.column}"

/-- The codec made of the readers and printers in `Json` and `Toml`. -/
def Codec.standard : Codec where
  parseJson text :=
    match Json.read text with
    | .ok tree => .ok tree
    | .error (problem, position) => .error (position, problem.reason position)
  parseToml text :=
    match Toml.read text with
    | .ok tree => .ok tree
    | .error offset => .error (some offset, "")
  printJson tree := .ok (Json.render tree)
  printToml tree := .ok (Toml.render tree)
  convert tree := .ok tree
  shown := Json.compact

end RegisterBank.Document
