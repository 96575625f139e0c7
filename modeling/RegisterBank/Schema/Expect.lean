import RegisterBank.Error
import RegisterBank.Text.Integer

/-!
# Expecting content

What a schema expects at a place of a document: a table with certain keys, a
list, a text, an integer.  An integer may also be written as a text.  The text of
a whole document is read and rendered by a codec, whose failures become errors
here.
-/

namespace RegisterBank.Schema

open RegisterBank.Document

/-- A failure at a place. -/
def fault {α : Type} (place : Place) (problem : SchemaProblem) : Result α :=
  .error (.schema place problem)

/-- The entries of a table. -/
def expectTable (place : Place) : Tree → Result (List (String × Tree))
  | .table entries => .ok entries
  | found => fault place (.wrongKind "a table" found)

/-- The items of a list. -/
def expectList (place : Place) : Tree → Result (List Tree)
  | .list items => .ok items
  | found => fault place (.wrongKind "an array" found)

/-- A text. -/
def expectText (place : Place) : Tree → Result String
  | .text value => .ok value
  | found => fault place (.wrongKind "a string" found)

/-- The integer that a number or a text stands for. -/
def unsigned? : Tree → Option Nat
  | .int (.ofNat value) => some value
  | .text value => Text.integer? value
  | _ => none

/-- An integer that is not negative. -/
def expectUnsigned (place : Place) (found : Tree) : Result Nat :=
  match found with
  | .int _ | .float _ | .text _ =>
    match unsigned? found with
    | some value => .ok value
    | none => fault place (.notUnsigned found)
  | _ => fault place (.wrongKind "an integer" found)

/-- An integer below `2 ^ 32`. -/
def expectSmall (place : Place) (found : Tree) : Result Nat :=
  match expectUnsigned place found with
  | .error error => .error error
  | .ok value => if value < Nat.pow 2 32 then .ok value else fault place (.outOfRange value)

/-- Nothing, if a table has no key but those allowed.  The first other key in
their order is reported. -/
def checkKeys (place : Place) (allowed : List String) (entries : List (String × Tree)) :
    Result Unit :=
  match entries.find? fun entry => !allowed.contains entry.1 with
  | some (key, _) => fault (place.member key) (.unknownAttribute key allowed)
  | none => .ok ()

/-- The value under a key that a table must have. -/
def required (place : Place) (key : String) (entries : List (String × Tree)) : Result Tree :=
  match lookup? key entries with
  | some value => .ok value
  | none => fault place (.missingAttribute key)

/-- The tree of a text in a format. -/
def readTree (codec : Codec) (format : Format) (text document : String) : Result Tree :=
  match codec.read format text with
  | .ok tree => .ok tree
  | .error (position, reason) => .error (.parse document position reason)

/-- The text of a tree in a format.  The target stands in errors. -/
def renderTree (codec : Codec) (format : Format) (tree : Tree) (target : String) : Result String :=
  (codec.render format tree).mapError (.render target)

/-- An integer as documents write it.  One that no signed 64-bit integer holds
is written as a text. -/
def intTree (value : Nat) : Tree :=
  if value < Nat.pow 2 63 then .int value else .text (Text.hexPlain value)

end RegisterBank.Schema
