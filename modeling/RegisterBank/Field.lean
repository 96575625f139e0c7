import RegisterBank.Error
import RegisterBank.Text.Identifier

/-!
# Bit fields

A bit field is a named range of a register's bits with an access mode, an
initial value and modifiers.  It is checked when it is made and whenever its
initial value or its modifiers change, so a field that one of the functions
below returns always obeys the rules: it lies within 64 bits, the initial value
fits, and the modifiers go with the access mode and with each other.
-/

namespace RegisterBank

/-- A named range of a register's bits. -/
structure Field where
  name : String
  description : String
  bits : BitRange
  access : Access
  initial : Nat
  modifiers : Modifiers
  deriving DecidableEq, Repr

namespace Field

/-- Whether the field has a modifier. -/
def has (field : Field) (modifier : Modifier) : Bool := field.modifiers.has modifier

/-! ## Rules -/

/-- The rule of one modifier that the field's access mode breaks. -/
def accessProblem? (field : Field) (modifier : Modifier) : Option Conflict :=
  if modifier.needsWrite then
    if field.access.isWritable then none
    else some (.needsWritable modifier field.name field.access)
  else if field.access.isReadable then none
  else some (.needsReadable modifier field.name field.access)

/-- The rule that a pair of modifiers breaks if the field has both. -/
def pairProblem? (field : Field) (pair : Modifier × Modifier) : Option Conflict :=
  if field.has pair.1 && field.has pair.2 then
    some (.exclusiveModifiers field.name pair.1 pair.2)
  else none

/-- Whether the field's value goes back to zero by itself. -/
def reverts (field : Field) : Bool := field.has .selfClear || field.has .writePulse

/-- The first rule about the initial value and the modifiers that the field
breaks. -/
def problem? (field : Field) : Option Conflict :=
  if !Bits.fits field.initial field.bits.width then
    some (.initialTooLarge field.name field.initial field.bits.width)
  else
    match field.modifiers.toList.findSome? field.accessProblem? with
    | some problem => some problem
    | none =>
      match Modifier.exclusivePairs.findSome? field.pairProblem? with
      | some problem => some problem
      | none =>
        if field.reverts && field.initial != 0 then
          some (.initialReverts field.name field.initial)
        else none

/-- The field itself, if it breaks no rule. -/
def checked (field : Field) : Result Field :=
  match field.problem? with
  | some problem => conflict problem
  | none => .ok field

/-! ## Making fields -/

/-- A field without description and modifiers, whose initial value is zero. -/
def make (name : String) (lsb width : Nat) (access : Access) : Result Field :=
  if !Text.isIdentifier name then conflict (.fieldName name)
  else if width = 0 then conflict (.zeroWidth name)
  else if lsb + width > Bits.wordWidth then conflict (.fieldTooWide name lsb width)
  else .ok ⟨name, "", ⟨lsb, width⟩, access, 0, .none⟩

/-- The field with another description. -/
def withDescription (field : Field) (description : String) : Field :=
  { field with description := description }

/-- The field with another initial value. -/
def withInitial (field : Field) (initial : Nat) : Result Field :=
  checked { field with initial := initial }

/-- The field with one modifier more. -/
def withModifier (field : Field) (modifier : Modifier) : Result Field :=
  checked { field with modifiers := field.modifiers.insert modifier }

/-- The field with some modifiers more, which are checked together. -/
def withModifiers (field : Field) (modifiers : List Modifier) : Result Field :=
  checked { field with modifiers := field.modifiers.insertAll modifiers }

/-! ## What follows from a field -/

/-- Whether the value comes straight from a hardware input, so that the field
has no storage of its own. -/
def isHardwareDriven (field : Field) : Bool := field.access == .readOnly && !field.has .readClear

/-- Whether two fields share a bit. -/
def overlaps (field other : Field) : Bool := field.bits.overlaps other.bits

end Field

end RegisterBank
